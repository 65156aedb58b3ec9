import Oseer.Devices
import Oseer.Library.RingBuffer

/-!
# The keyboard buffer

The functions of `arch/i386/arch/devices/i8042.c` that put keystrokes into the
buffer of the keyboard and take them out again, and the bounded queue that the
buffer is meant to be.  The translation of scan codes is left out: it hands
over a keystroke and the special keys that are held down.
-/

namespace Oseer

open RingBuffer

/-- `int32`, as a word of bits. -/
abbrev Keystroke := BitVec 32

/-- `KEYB_BUFF_SIZE`. -/
def KEYB_BUFF_SIZE : Nat := 256

/-- `ASCII_KEY`. -/
def asciiKey (key : Keystroke) : Keystroke := key &&& 0xff

/-- The variables of the keyboard. -/
structure Keyboard where
  keybBuffer : Nat → Keystroke
  bufFirst : Nat
  bufLast : Nat
  bufSize : Nat
  specKeysDown : Keystroke
  keybFlags : Nat

/-- What a function returns, and what it stores for its caller. -/
structure KeyboardResult where
  retval : Nat
  stored : Option Keystroke
deriving DecidableEq, Repr

namespace Keyboard

/-- `i8042_init`.  `specKeys` is what remains after the hardware buffer is read
empty. -/
def i8042Init (flags : Nat) (specKeys : Keystroke) (keyboard : Keyboard) : Keyboard :=
  { keyboard with
    bufFirst := 0
    bufLast := 0
    bufSize := 0
    specKeysDown := specKeys
    keybFlags := flags }

/-- `i8042_insert_keystroke`. -/
def i8042InsertKeystroke (c : Keystroke) (keyboard : Keyboard) : Nat × Keyboard :=
  if c = 0 then (0, keyboard)
  else if keyboard.keybFlags &&& ONLY_ASCII ≠ 0 ∧ asciiKey c = 0 then (0, keyboard)
  else
    let keyboard := { keyboard with
      keybBuffer := Function.update keyboard.keybBuffer keyboard.bufLast
        (c ||| keyboard.specKeysDown)
      bufLast := (keyboard.bufLast + 1) % KEYB_BUFF_SIZE }
    if keyboard.bufSize < KEYB_BUFF_SIZE then
      (1, { keyboard with bufSize := keyboard.bufSize + 1 })
    else
      (1, { keyboard with bufFirst := (keyboard.bufFirst + 1) % KEYB_BUFF_SIZE })

/-- The loop of `i8042_get`, for a buffer of this many keystrokes. -/
def getLoop (flags : Nat) : Nat → Keyboard → Keystroke × Keyboard
  | 0, keyboard => (0, keyboard)
  | size + 1, keyboard =>
      let key := keyboard.keybBuffer keyboard.bufFirst
      let keyboard := { keyboard with
        bufFirst := (keyboard.bufFirst + 1) % KEYB_BUFF_SIZE
        bufSize := size }
      if flags &&& ONLY_ASCII ≠ 0 then
        if asciiKey key = 0 ∧ 0 < size then getLoop flags size keyboard
        else (asciiKey key, keyboard)
      else (key, keyboard)

/-- The part of `i8042_get` for `ONLY_LAST`. -/
def keepLast (flags : Nat) (keyboard : Keyboard) : Keyboard :=
  if flags &&& ONLY_LAST ≠ 0 ∧ keyboard.bufLast ≠ keyboard.bufFirst then
    { keyboard with bufLast := keyboard.bufFirst, bufSize := 1 }
  else keyboard

/-- The part of `i8042_get` for `CLEAR_BUFFER`. -/
def clearBuffer (flags : Nat) (keyboard : Keyboard) : Keyboard :=
  if flags &&& CLEAR_BUFFER ≠ 0 then
    { keyboard with bufFirst := 0, bufLast := 0, bufSize := 0 }
  else keyboard

/-- `i8042_get`; `data` tells whether the caller gives a place for the keystroke. -/
def i8042Get (data : Bool) (flags : Nat) (keyboard : Keyboard) : KeyboardResult × Keyboard :=
  if 0 < keyboard.bufSize then
    let keyboard := keyboard.keepLast flags
    let taken := keyboard.getLoop flags keyboard.bufSize
    let key := taken.1
    (⟨if key ≠ 0 then 1 else 0, if key ≠ 0 ∧ data then some key else none⟩,
      taken.2.clearBuffer flags)
  else (⟨0, none⟩, keyboard)

end Keyboard

/-- The operations on the keyboard. -/
inductive KeyboardOp
  | insert (c : Keystroke)
  | get (data : Bool) (flags : Nat)
  /-- The special keys that are held down change. -/
  | hold (specKeys : Keystroke)
deriving DecidableEq, Repr

namespace Keyboard

/-- One operation. -/
def step : KeyboardOp → Keyboard → KeyboardResult × Keyboard
  | .insert c, keyboard =>
      let inserted := keyboard.i8042InsertKeystroke c
      (⟨inserted.1, none⟩, inserted.2)
  | .get data flags, keyboard => keyboard.i8042Get data flags
  | .hold specKeys, keyboard => (⟨0, none⟩, { keyboard with specKeysDown := specKeys })

/-- A sequence of operations: what they return, and the keyboard afterwards. -/
def run : List KeyboardOp → Keyboard → List KeyboardResult × Keyboard
  | [], keyboard => ([], keyboard)
  | op :: ops, keyboard =>
      let first := keyboard.step op
      let rest := run ops first.2
      (first.1 :: rest.1, rest.2)

end Keyboard

/-- The queue of keystrokes that the buffer is meant to be. -/
structure KeyQueue where
  keys : List Keystroke
  specKeysDown : Keystroke
  keybFlags : Nat
deriving DecidableEq, Repr

namespace KeyQueue

/-- A keystroke enters the queue, unless there is nothing in it to keep. -/
def insert (c : Keystroke) (queue : KeyQueue) : Nat × KeyQueue :=
  if c = 0 ∨ queue.keybFlags &&& ONLY_ASCII ≠ 0 ∧ asciiKey c = 0 then (0, queue)
  else (1, { queue with
    keys := pushNewest KEYB_BUFF_SIZE queue.keys (c ||| queue.specKeysDown) })

/-- The newest keystroke alone. -/
def newest (keys : List Keystroke) : List Keystroke := keys.getLast?.toList

/-- The oldest keystroke, and those after it. -/
def oldest (keys : List Keystroke) : Option Keystroke × List Keystroke :=
  (keys.head?, keys.tail)

/-- The oldest keystroke that stands for a character, and those after it. -/
def oldestAscii (keys : List Keystroke) : Option Keystroke × List Keystroke :=
  let keys := keys.dropWhile fun key => asciiKey key = 0
  (keys.head?.map asciiKey, keys.tail)

/-- A keystroke is taken from the queue. -/
def get (flags : Nat) (queue : KeyQueue) : Option Keystroke × KeyQueue :=
  let keys := if flags &&& ONLY_LAST ≠ 0 then newest queue.keys else queue.keys
  let taken := if flags &&& ONLY_ASCII ≠ 0 then oldestAscii keys else oldest keys
  (taken.1, { queue with keys := if flags &&& CLEAR_BUFFER ≠ 0 then [] else taken.2 })

/-- One operation. -/
def step : KeyboardOp → KeyQueue → KeyboardResult × KeyQueue
  | .insert c, queue =>
      let inserted := queue.insert c
      (⟨inserted.1, none⟩, inserted.2)
  | .get data flags, queue =>
      let taken := queue.get flags
      (⟨if taken.1.isSome then 1 else 0, if data then taken.1 else none⟩, taken.2)
  | .hold specKeys, queue => (⟨0, none⟩, { queue with specKeysDown := specKeys })

/-- A sequence of operations: what they return, and the queue afterwards. -/
def run : List KeyboardOp → KeyQueue → List KeyboardResult × KeyQueue
  | [], queue => ([], queue)
  | op :: ops, queue =>
      let first := queue.step op
      let rest := run ops first.2
      (first.1 :: rest.1, rest.2)

end KeyQueue

section Refinement

open Keyboard

variable {keyboard : Keyboard} {queue : KeyQueue} {flags : Nat} {c specKeys : Keystroke}
  {data : Bool} {keys : List Keystroke}

/-- The buffer of the keyboard stands for the queue. -/
structure Stands (keyboard : Keyboard) (queue : KeyQueue) : Prop where
  valid : Valid KEYB_BUFF_SIZE keyboard.bufFirst keyboard.bufLast keyboard.bufSize
  contents : contents KEYB_BUFF_SIZE keyboard.keybBuffer keyboard.bufFirst keyboard.bufSize =
    queue.keys
  specKeysDown : keyboard.specKeysDown = queue.specKeysDown
  keybFlags : keyboard.keybFlags = queue.keybFlags
  nonzero : ∀ key ∈ queue.keys, key ≠ 0

theorem Stands.length (stands : Stands keyboard queue) :
    queue.keys.length = keyboard.bufSize := by
  rw [← stands.contents, contents_length]

theorem Stands.empty (first : keyboard.bufFirst = 0) (last : keyboard.bufLast = 0)
    (size : keyboard.bufSize = 0) :
    Stands keyboard ⟨[], keyboard.specKeysDown, keyboard.keybFlags⟩ where
  valid := by
    rw [first, last, size]
    exact Valid.empty (by decide)
  contents := by rw [size, contents_zero]
  specKeysDown := rfl
  keybFlags := rfl
  nonzero := by simp

theorem or_ne_zero (nonzero : c ≠ 0) : c ||| specKeys ≠ 0 := by
  intro isZero
  exact nonzero (BitVec.or_eq_zero_iff.mp isZero).1

theorem mem_pushNewest {key value : Keystroke} (mem : key ∈ pushNewest KEYB_BUFF_SIZE keys value) :
    key ∈ keys ∨ key = value := by
  unfold pushNewest at mem
  split at mem
  · simpa using mem
  · rcases List.mem_append.mp mem with inTail | isValue
    · exact .inl (List.mem_of_mem_tail inTail)
    · exact .inr (List.mem_singleton.mp isValue)

/-- `i8042_insert_keystroke` puts the keystroke into the queue. -/
theorem Stands.insert (stands : Stands keyboard queue) :
    (keyboard.i8042InsertKeystroke c).1 = (queue.insert c).1 ∧
      Stands (keyboard.i8042InsertKeystroke c).2 (queue.insert c).2 := by
  unfold i8042InsertKeystroke KeyQueue.insert
  rw [stands.keybFlags, stands.specKeysDown]
  by_cases empty : c = 0
  · rw [if_pos empty, if_pos (.inl empty)]
    exact ⟨rfl, stands⟩
  by_cases ignored : queue.keybFlags &&& ONLY_ASCII ≠ 0 ∧ asciiKey c = 0
  · rw [if_neg empty, if_pos ignored, if_pos (.inr ignored)]
    exact ⟨rfl, stands⟩
  rw [if_neg empty, if_neg ignored, if_neg (not_or.mpr ⟨empty, ignored⟩)]
  have nonzero : ∀ key ∈ pushNewest KEYB_BUFF_SIZE queue.keys (c ||| queue.specKeysDown),
      key ≠ 0 := by
    intro key mem
    rcases mem_pushNewest mem with old | rfl
    · exact stands.nonzero key old
    · exact or_ne_zero empty
  dsimp only
  split
  · obtain ⟨valid, pushed⟩ :=
      stands.valid.push keyboard.keybBuffer (c ||| queue.specKeysDown) ‹_›
    exact ⟨rfl, valid, pushed.trans (by rw [stands.contents]), rfl, rfl, nonzero⟩
  · obtain ⟨valid, pushed⟩ :=
      stands.valid.overwrite keyboard.keybBuffer (c ||| queue.specKeysDown)
        (Nat.not_lt.mp ‹_›)
    exact ⟨rfl, valid, pushed.trans (by rw [stands.contents]), rfl, rfl, nonzero⟩

/-- The oldest keystroke leaves the buffer. -/
theorem Stands.pop {key : Keystroke} {rest : List Keystroke} {size : Nat}
    (stands : Stands keyboard queue) (keys : queue.keys = key :: rest)
    (sizeIs : keyboard.bufSize = size + 1) :
    keyboard.keybBuffer keyboard.bufFirst = key ∧
      Stands { keyboard with
        bufFirst := (keyboard.bufFirst + 1) % KEYB_BUFF_SIZE
        bufSize := size } { queue with keys := rest } := by
  obtain ⟨valid, popped⟩ := stands.valid.pop keyboard.keybBuffer (by omega)
  rw [stands.contents, keys, sizeIs, Nat.add_sub_cancel] at popped
  rw [sizeIs, Nat.add_sub_cancel] at valid
  obtain ⟨same, sameRest⟩ := List.cons.inj popped
  refine ⟨same.symm, valid, sameRest.symm, stands.specKeysDown, stands.keybFlags, ?_⟩
  intro other mem
  exact stands.nonzero other (keys ▸ List.mem_cons_of_mem _ mem)

/-- What is taken from a queue, with the flag `ONLY_ASCII` or without. -/
def taken (flags : Nat) (keys : List Keystroke) : Option Keystroke × List Keystroke :=
  if flags &&& ONLY_ASCII ≠ 0 then KeyQueue.oldestAscii keys else KeyQueue.oldest keys

theorem taken_nil : taken flags [] = (none, []) := by
  unfold taken
  split <;> rfl

theorem taken_cons {key : Keystroke} {rest : List Keystroke} :
    taken flags (key :: rest) =
      if flags &&& ONLY_ASCII ≠ 0 then
        if asciiKey key = 0 then taken flags rest else (some (asciiKey key), rest)
      else (some key, rest) := by
  unfold taken
  by_cases only : flags &&& ONLY_ASCII ≠ 0
  · rw [if_pos only, if_pos only, if_pos only]
    unfold KeyQueue.oldestAscii
    by_cases isZero : asciiKey key = 0
    · rw [if_pos isZero, List.dropWhile_cons_of_pos (by simpa using isZero)]
    · rw [if_neg isZero, List.dropWhile_cons_of_neg (by simpa using isZero)]
      rfl
  · rw [if_neg only, if_neg only]
    rfl

/-- No keystroke that is taken is zero. -/
theorem taken_ne_zero {key : Keystroke} (nonzero : ∀ key ∈ keys, key ≠ 0)
    (found : (taken flags keys).1 = some key) : key ≠ 0 := by
  induction keys with
  | nil =>
      rw [taken_nil] at found
      cases found
  | cons first rest ih =>
      rw [taken_cons] at found
      split at found
      · split at found
        · exact ih (fun key mem => nonzero key (List.mem_cons_of_mem _ mem)) found
        · exact Option.some.inj found ▸ ‹_›
      · exact Option.some.inj found ▸ nonzero first List.mem_cons_self

/-- The loop of `i8042_get` takes keystrokes up to the one that is asked for. -/
theorem Stands.getLoop {size : Nat} (stands : Stands keyboard queue) (flags : Nat)
    (sizeIs : keyboard.bufSize = size) :
    (keyboard.getLoop flags size).1 = (taken flags queue.keys).1.getD 0 ∧
      Stands (keyboard.getLoop flags size).2
        { queue with keys := (taken flags queue.keys).2 } := by
  induction size generalizing keyboard queue with
  | zero =>
      have noKeys : queue.keys = [] := List.length_eq_zero_iff.mp (stands.length.trans sizeIs)
      rw [noKeys, taken_nil]
      refine ⟨rfl, ?_⟩
      have same : { queue with keys := [] } = queue := by rw [← noKeys]
      rw [same]
      exact stands
  | succ size ih =>
      cases keys : queue.keys with
      | nil =>
          have := stands.length
          rw [keys, sizeIs] at this
          cases this
      | cons key rest =>
          obtain ⟨isOldest, popped⟩ := stands.pop keys sizeIs
          unfold Keyboard.getLoop
          rw [taken_cons]
          simp only [isOldest]
          by_cases only : flags &&& ONLY_ASCII ≠ 0
          · rw [if_pos only, if_pos only]
            by_cases isZero : asciiKey key = 0
            · rw [if_pos isZero]
              by_cases more : 0 < size
              · rw [if_pos ⟨isZero, more⟩]
                exact ih popped rfl
              · -- the buffer is empty, and so is what is left of the queue
                rw [if_neg fun both => more both.2]
                have noMore : rest = [] := by
                  apply List.length_eq_zero_iff.mp
                  have := popped.length
                  dsimp only at this
                  omega
                subst noMore
                rw [taken_nil]
                exact ⟨isZero, popped⟩
            · rw [if_neg isZero, if_neg fun both => isZero both.1]
              exact ⟨rfl, popped⟩
          · rw [if_neg only, if_neg only]
            exact ⟨rfl, popped⟩

theorem Stands.clearBuffer (stands : Stands keyboard queue) :
    Stands (keyboard.clearBuffer flags) { queue with
      keys := if flags &&& CLEAR_BUFFER ≠ 0 then [] else queue.keys } := by
  unfold Keyboard.clearBuffer
  split
  · rw [← stands.specKeysDown, ← stands.keybFlags]
    exact Stands.empty rfl rfl rfl
  · exact stands

/-- A call of `i8042_get` that takes the newest keystroke, as far as the code
gets this right: none is there, or there is one only and the buffer is cleared. -/
def KeyboardOp.Meets : KeyboardOp → Keyboard → Prop
  | .get _ flags, keyboard =>
      flags &&& ONLY_LAST = 0 ∨ keyboard.bufSize = 0 ∨
        keyboard.bufSize = 1 ∧ flags &&& CLEAR_BUFFER ≠ 0
  | .insert _, _ => True
  | .hold _, _ => True

theorem answer_eq {found : Option Keystroke} (nonzero : ∀ key, found = some key → key ≠ 0) :
    (⟨if found.getD 0 ≠ 0 then 1 else 0,
      if found.getD 0 ≠ 0 ∧ data then some (found.getD 0) else none⟩ : KeyboardResult) =
      ⟨if found.isSome then 1 else 0, if data then found else none⟩ := by
  cases found with
  | none => cases data <;> rfl
  | some key =>
      have isKey : ¬ key = 0#32 := nonzero key rfl
      cases data <;> simp [isKey]

/-- The buffer of a single keystroke that is to be cleared. -/
theorem Stands.getSingle {key : Keystroke} (stands : Stands keyboard queue)
    (keys : queue.keys = [key]) (clear : flags &&& CLEAR_BUFFER ≠ 0) :
    ((keyboard.keepLast flags).getLoop flags 1).1 = (taken flags [key]).1.getD 0 ∧
      Stands (((keyboard.keepLast flags).getLoop flags 1).2.clearBuffer flags)
        { queue with keys := [] } := by
  have size : keyboard.bufSize = 1 := by
    rw [← stands.length, keys]
    rfl
  have oldest := (stands.pop keys size).1
  generalize keptIs : keyboard.keepLast flags = kept
  have same : kept.keybBuffer kept.bufFirst = key ∧ kept.specKeysDown = queue.specKeysDown ∧
      kept.keybFlags = queue.keybFlags := by
    rw [← keptIs]
    unfold Keyboard.keepLast
    split <;> exact ⟨oldest, stands.specKeysDown, stands.keybFlags⟩
  unfold Keyboard.getLoop Keyboard.clearBuffer
  rw [if_pos clear, taken_cons, taken_nil]
  dsimp only
  rw [same.1]
  rw [← same.2.1, ← same.2.2]
  by_cases only : flags &&& ONLY_ASCII ≠ 0
  · rw [if_pos only, if_pos only, if_neg fun both => Nat.lt_irrefl 0 both.2]
    by_cases isZero : asciiKey key = 0
    · rw [if_pos isZero]
      exact ⟨isZero, Stands.empty rfl rfl rfl⟩
    · rw [if_neg isZero]
      exact ⟨rfl, Stands.empty rfl rfl rfl⟩
  · rw [if_neg only, if_neg only]
    exact ⟨rfl, Stands.empty rfl rfl rfl⟩

/-- `i8042_get` takes the keystroke that is asked for, unless it is to take the newest
of several. -/
theorem Stands.get (stands : Stands keyboard queue)
    (meets : (KeyboardOp.get data flags).Meets keyboard) :
    (keyboard.step (.get data flags)).1 = (queue.step (.get data flags)).1 ∧
      Stands (keyboard.step (.get data flags)).2 (queue.step (.get data flags)).2 := by
  have asked : ∀ keys, (if flags &&& ONLY_ASCII ≠ 0 then KeyQueue.oldestAscii keys
      else KeyQueue.oldest keys) = taken flags keys := fun _ => rfl
  simp only [Keyboard.step, KeyQueue.step, KeyQueue.get, asked, i8042Get]
  by_cases some : 0 < keyboard.bufSize
  · rw [if_pos some]
    rcases meets with notLast | isEmpty | ⟨isSingle, clear⟩
    · have kept : keyboard.keepLast flags = keyboard := if_neg fun both => both.1 notLast
      obtain ⟨found, left⟩ := stands.getLoop flags rfl
      rw [kept, if_neg (not_not.mpr notLast), found]
      exact ⟨answer_eq fun _ => taken_ne_zero stands.nonzero, left.clearBuffer⟩
    · omega
    · obtain ⟨key, keys⟩ : ∃ key, queue.keys = [key] :=
        List.length_eq_one_iff.mp (stands.length.trans isSingle)
      have newest : (if flags &&& ONLY_LAST ≠ 0 then KeyQueue.newest queue.keys
          else queue.keys) = [key] := by
        rw [keys]
        exact ite_self _
      have size : (keyboard.keepLast flags).bufSize = 1 := by
        unfold Keyboard.keepLast
        split
        · rfl
        · exact isSingle
      obtain ⟨found, left⟩ := stands.getSingle keys clear
      rw [newest, size, found, if_pos clear]
      exact ⟨answer_eq fun _ => taken_ne_zero (keys ▸ stands.nonzero), left⟩
  · have noKeys : queue.keys = [] :=
      List.length_eq_zero_iff.mp (stands.length.trans (by omega))
    have nothing : (if flags &&& ONLY_LAST ≠ 0 then KeyQueue.newest queue.keys
        else queue.keys) = [] := by
      rw [noKeys]
      exact ite_self _
    have cleared : (if flags &&& CLEAR_BUFFER ≠ 0 then [] else ([] : List Keystroke)) = [] :=
      ite_self _
    have same : { queue with keys := [] } = queue := by rw [← noKeys]
    rw [if_neg some, nothing, taken_nil]
    dsimp only
    rw [cleared, same]
    exact ⟨by cases data <;> rfl, stands⟩

theorem Stands.step {op : KeyboardOp} (stands : Stands keyboard queue)
    (meets : op.Meets keyboard) :
    (keyboard.step op).1 = (queue.step op).1 ∧
      Stands (keyboard.step op).2 (queue.step op).2 := by
  cases op with
  | insert c =>
      obtain ⟨same, stands'⟩ := stands.insert (c := c)
      exact ⟨congrArg (KeyboardResult.mk · none) same, stands'⟩
  | get data flags => exact stands.get meets
  | hold specKeys =>
      exact ⟨rfl, stands.valid, stands.contents, rfl, stands.keybFlags, stands.nonzero⟩

/-- Every operation of a sequence meets the condition when it is its turn. -/
def Keyboard.RunMeets : List KeyboardOp → Keyboard → Prop
  | [], _ => True
  | op :: ops, keyboard => op.Meets keyboard ∧ RunMeets ops (keyboard.step op).2

/-- A sequence of operations of the keyboard is one of the queue. -/
theorem Stands.run {ops : List KeyboardOp} (stands : Stands keyboard queue)
    (meets : keyboard.RunMeets ops) :
    (keyboard.run ops).1 = (queue.run ops).1 ∧
      Stands (keyboard.run ops).2 (queue.run ops).2 := by
  induction ops generalizing keyboard queue with
  | nil => exact ⟨rfl, stands⟩
  | cons op ops ih =>
      obtain ⟨same, stands'⟩ := stands.step meets.1
      obtain ⟨sameRest, stands''⟩ := ih stands' meets.2
      refine ⟨?_, stands''⟩
      unfold Keyboard.run KeyQueue.run
      dsimp only
      rw [same, sameRest]

/-- After `i8042_init` the keyboard answers any sequence of operations as the bounded
queue does, and its indexes and its counter belong together, as long as the newest
keystroke is asked for only where none is there, or a single one that is cleared. -/
theorem keyboard_refines_queue (keyboard : Keyboard) (flags : Nat) (specKeys : Keystroke)
    (ops : List KeyboardOp) (meets : (keyboard.i8042Init flags specKeys).RunMeets ops) :
    let reached := (keyboard.i8042Init flags specKeys).run ops
    let intended := KeyQueue.run ops ⟨[], specKeys, flags⟩
    reached.1 = intended.1 ∧ reached.2.bufSize ≤ KEYB_BUFF_SIZE ∧
      (reached.2.bufFirst + reached.2.bufSize) % KEYB_BUFF_SIZE = reached.2.bufLast ∧
      contents KEYB_BUFF_SIZE reached.2.keybBuffer reached.2.bufFirst reached.2.bufSize =
        intended.2.keys := by
  have started : Stands (keyboard.i8042Init flags specKeys) ⟨[], specKeys, flags⟩ :=
    Stands.empty rfl rfl rfl
  obtain ⟨same, stands⟩ := started.run meets
  exact ⟨same, stands.valid.size_le, stands.valid.meet, stands.contents⟩

/-- A keyboard before `i8042_init`. -/
def bootKeyboard : Keyboard := ⟨fun _ => 0, 0, 0, 0, 0, 0⟩

/-- Two keystrokes, one of which is taken, and then the newest one, with the buffer
cleared. -/
theorem keyboard_refines_queue_two :
    let ops := [.insert 0x61, .insert 0x62, .get true 0,
      .get true (ONLY_LAST ||| CLEAR_BUFFER)]
    let reached := (bootKeyboard.i8042Init 0 0).run ops
    let intended := KeyQueue.run ops ⟨[], 0, 0⟩
    reached.1 = intended.1 ∧ reached.2.bufSize ≤ KEYB_BUFF_SIZE ∧
      (reached.2.bufFirst + reached.2.bufSize) % KEYB_BUFF_SIZE = reached.2.bufLast ∧
      contents KEYB_BUFF_SIZE reached.2.keybBuffer reached.2.bufFirst reached.2.bufSize =
        intended.2.keys :=
  keyboard_refines_queue bootKeyboard 0 0 _
    ⟨trivial, trivial, .inl rfl, .inr (.inr ⟨by decide, by decide⟩), trivial⟩

/-- Of two keystrokes, the older one is returned as the newest, and the indexes do not
belong to the counter any more. -/
theorem keyboard_returns_oldest :
    let ops := [.insert 0x61, .insert 0x62, .get true ONLY_LAST]
    let reached := (bootKeyboard.i8042Init 0 0).run ops
    reached.1 = [⟨1, none⟩, ⟨1, none⟩, ⟨1, some 0x61⟩] ∧
      (KeyQueue.run ops ⟨[], 0, 0⟩).1 = [⟨1, none⟩, ⟨1, none⟩, ⟨1, some 0x62⟩] ∧
      (reached.2.bufFirst + reached.2.bufSize) % KEYB_BUFF_SIZE ≠ reached.2.bufLast := by
  decide

end Refinement

end Oseer

import Mathlib.Algebra.Ring.Parity
import Mathlib.Data.List.Induction
import Mathlib.Tactic.SplitIfs
import Oseer.Keyboard

/-!
# The scan-code decoder

`i8042_prepare_char` turns the bytes of the keyboard controller into keystrokes.  It keeps which
special keys are held down, and whether the byte before was the prefix 0xE0.  The bytes form codes
of one byte, or of the prefix and one byte; some of the codes are makes and breaks of special keys.
-/

namespace Oseer

/-- The special keys that are held down. -/
inductive Modifier
  | lshift
  | rshift
  | lalt
  | ralt
  | lctrl
  | rctrl
deriving DecidableEq, Repr

/-- The bit of a special key in `spec_keys_down`. -/
def Modifier.bit : Modifier → Nat
  | .lshift => 16
  | .rshift => 17
  | .lalt => 18
  | .ralt => 19
  | .lctrl => 20
  | .rctrl => 21

/-- A special key as a word with its bit. -/
def Modifier.mask (key : Modifier) : Keystroke := 1 <<< key.bit

/-- The bit of `CAPSL`. -/
def capslBit : Nat := 22

def LSHIFT : Keystroke := Modifier.lshift.mask
def RSHIFT : Keystroke := Modifier.rshift.mask
def LALT : Keystroke := Modifier.lalt.mask
def RALT : Keystroke := Modifier.ralt.mask
def LCTRL : Keystroke := Modifier.lctrl.mask
def RCTRL : Keystroke := Modifier.rctrl.mask
def CAPSL : Keystroke := 1 <<< capslBit

def K_LSHIFT_DOWN : Keystroke := 1
def K_LSHIFT_UP : Keystroke := 2
def K_RSHIFT_DOWN : Keystroke := 3
def K_RSHIFT_UP : Keystroke := 4
def K_LALT_DOWN : Keystroke := 5
def K_LALT_UP : Keystroke := 6
def K_RALT_DOWN : Keystroke := 7
def K_RALT_UP : Keystroke := 8
def K_LCTRL_DOWN : Keystroke := 9
def K_LCTRL_UP : Keystroke := 10
def K_RCTRL_DOWN : Keystroke := 11
def K_RCTRL_UP : Keystroke := 12
def K_CAPSL : Keystroke := 13

/-- `K_SPEC_KEY`. -/
def kSpecKey (key : Keystroke) : Keystroke := key <<< 8

/-- `CAPSLED`. -/
def CAPSLED : UInt8 := 0x04

/-- `keyb_codes`, up to the last character. -/
def keybCodes : List Char :=
  ['\x00', '\x1b', '1', '2', '3', '4', '5', '6', '7', '8', '9', '0', '\x27', '+', '\x08', '\x09',
    'q', 'w', 'e', 'r', 't', 'z', 'u', 'i', 'o', 'p', '\x7b', '\x7d', '\x0a', '\x00', 'a', 's',
    'd', 'f', 'g', 'h', 'j', 'k', 'l', ';', '\x27', '\x60', '\x00', '\x5c', 'y', 'x', 'c', 'v',
    'b', 'n', 'm', ',', '.', '-', '\x00', '*', '\x00', ' ', '\x00', '\x00', '\x00', '\x00', '\x00',
    '\x00', '\x00', '\x00', '\x00', '\x00', '\x00', '\x00', '\x00', '7', '8', '9', '-', '4', '5',
    '6', '+', '1', '2', '3', '0', '.']

/-- `keyb_codes_shift`, up to the last character. -/
def keybCodesShift : List Char :=
  ['\x00', '\x00', '!', '\x22', '#', '$', '%', '&', '/', '(', ')', '=', '\x00', '*', '\x08', '\x09',
    'Q', 'W', 'E', 'R', 'T', 'Z', 'U', 'I', 'O', 'P', '[', ']', '\x0a', '\x00', 'A', 'S',
    'D', 'F', 'G', 'H', 'J', 'K', 'L', ';', '\x22', '\x00', '\x00', '|', 'Y', 'X', 'C', 'V',
    'B', 'N', 'M', ';', ':', '_', '\x00', '\x00', '\x00', ' ', '\x00', '\x00', '\x00', '\x00',
    '\x00', '\x00', '\x00', '\x00', '\x00', '\x00', '\x00', '\x00', '\x00', '7', '8', '9', '-',
    '4', '5', '6', '+', '1', '2', '3', '0', '.']

/-- An entry of a table; the rest of its 128 entries is zero. -/
def tableEntry (table : List Char) (c : UInt8) : Keystroke :=
  BitVec.ofNat 32 (table.getD c.toNat '\x00').toNat

/-- `SHIFT_ON`. -/
def shiftOn (keys : Keystroke) : Bool :=
  (keys &&& (LSHIFT ||| RSHIFT) ≠ 0 ∧ keys &&& CAPSL = 0) ∨
    (keys &&& (LSHIFT ||| RSHIFT) = 0 ∧ keys &&& CAPSL ≠ 0)

/-- What the decoder keeps, and the commands that it has sent to the controller. -/
structure Decoder where
  specKeysDown : Keystroke
  multiCode : Bool
  sent : List UInt8
deriving DecidableEq, Repr

namespace Decoder

/-- `i8042_set_leds`. -/
def setLeds (decoder : Decoder) : Decoder :=
  { decoder with
    sent := decoder.sent ++ [0xED, if decoder.specKeysDown &&& CAPSL ≠ 0 then CAPSLED else 0] }

/-- `spec_keys_down |= keys`. -/
def press (keys : Keystroke) (decoder : Decoder) : Decoder :=
  { decoder with specKeysDown := decoder.specKeysDown ||| keys }

/-- `spec_keys_down &= ~ keys`. -/
def unpress (keys : Keystroke) (decoder : Decoder) : Decoder :=
  { decoder with specKeysDown := decoder.specKeysDown &&& ~~~ keys }

/-- The first `switch` of `i8042_prepare_char`. -/
def plainCode (c : UInt8) (decoder : Decoder) : Keystroke × Decoder :=
  if c = 0xBA then
    (kSpecKey K_CAPSL,
      setLeds { decoder with specKeysDown := decoder.specKeysDown ^^^ CAPSL })
  else if c = 0xAA then (kSpecKey K_LSHIFT_UP, decoder.unpress LSHIFT)
  else if c = 0x2A then (kSpecKey K_LSHIFT_DOWN, decoder.press LSHIFT)
  else if c = 0xB6 then (kSpecKey K_RSHIFT_UP, decoder.unpress RSHIFT)
  else if c = 0x36 then (kSpecKey K_RSHIFT_DOWN, decoder.press RSHIFT)
  else if c = 0x1D then (kSpecKey K_LCTRL_DOWN, decoder.press LCTRL)
  else if c = 0x9D then (kSpecKey K_LCTRL_UP, decoder.unpress LCTRL)
  else if c = 0x38 then (kSpecKey K_LALT_DOWN, decoder.press LALT)
  else if c = 0xB8 then (kSpecKey K_LALT_UP, decoder.unpress LALT)
  else if c < 128 then
    (if shiftOn decoder.specKeysDown then tableEntry keybCodesShift c else tableEntry keybCodes c,
      decoder)
  else (0, decoder)

/-- The second `switch` of `i8042_prepare_char`, after the prefix. -/
def extendedCode (c : UInt8) (decoder : Decoder) : Keystroke × Decoder :=
  if c = 0x1D then (kSpecKey K_RCTRL_DOWN, decoder.press RCTRL)
  else if c = 0x9D then (K_RCTRL_UP, decoder.unpress RCTRL)
  else if c = 0x38 then (kSpecKey K_RALT_DOWN, decoder.press RALT)
  else if c = 0xB8 then (kSpecKey K_RALT_UP, decoder.unpress RALT)
  else (0, decoder)

/-- `i8042_prepare_char`. -/
def i8042PrepareChar (c : UInt8) (decoder : Decoder) : Keystroke × Decoder :=
  if c = 0xE0 ∧ ¬ decoder.multiCode then (0, { decoder with multiCode := true })
  else if ¬ decoder.multiCode then decoder.plainCode c
  else
    let prepared := decoder.extendedCode c
    (prepared.1, { prepared.2 with multiCode := false })

/-- The decoder after a sequence of bytes. -/
def decode (bytes : List UInt8) (decoder : Decoder) : Decoder :=
  bytes.foldl (fun decoder c => (decoder.i8042PrepareChar c).2) decoder

/-- The decoder before the first byte. -/
def start : Decoder := ⟨0, false, []⟩

end Decoder

/-- A code: one byte, or one byte after the prefix 0xE0. -/
inductive ScanCode
  | plain (byte : UInt8)
  | extended (byte : UInt8)
deriving DecidableEq, Repr

/-- What happens to a special key. -/
inductive KeyEvent
  | make (key : Modifier)
  | release (key : Modifier)
  | capsBreak
deriving DecidableEq, Repr

namespace ScanCode

/-- The codes of a sequence of bytes; `prefixed` tells whether a prefix comes before it. -/
def codesFrom : Bool → List UInt8 → List ScanCode
  | _, [] => []
  | true, byte :: bytes => .extended byte :: codesFrom false bytes
  | false, byte :: bytes =>
      if byte = 0xE0 then codesFrom true bytes else .plain byte :: codesFrom false bytes

/-- The complete codes of a sequence of bytes. -/
def codes (bytes : List UInt8) : List ScanCode := codesFrom false bytes

/-- The makes and breaks of the special keys. -/
def event : ScanCode → Option KeyEvent
  | .plain 0x2A => some (.make .lshift)
  | .plain 0xAA => some (.release .lshift)
  | .plain 0x36 => some (.make .rshift)
  | .plain 0xB6 => some (.release .rshift)
  | .plain 0x38 => some (.make .lalt)
  | .plain 0xB8 => some (.release .lalt)
  | .extended 0x38 => some (.make .ralt)
  | .extended 0xB8 => some (.release .ralt)
  | .plain 0x1D => some (.make .lctrl)
  | .plain 0x9D => some (.release .lctrl)
  | .extended 0x1D => some (.make .rctrl)
  | .extended 0x9D => some (.release .rctrl)
  | .plain 0xBA => some .capsBreak
  | _ => none

/-- The events of a sequence of bytes. -/
def events (bytes : List UInt8) : List KeyEvent := (codes bytes).filterMap event

end ScanCode

namespace KeyEvent

/-- The number of an event in bits 8 to 15 of a keystroke. -/
def number : KeyEvent → Keystroke
  | .make .lshift => K_LSHIFT_DOWN
  | .release .lshift => K_LSHIFT_UP
  | .make .rshift => K_RSHIFT_DOWN
  | .release .rshift => K_RSHIFT_UP
  | .make .lalt => K_LALT_DOWN
  | .release .lalt => K_LALT_UP
  | .make .ralt => K_RALT_DOWN
  | .release .ralt => K_RALT_UP
  | .make .lctrl => K_LCTRL_DOWN
  | .release .lctrl => K_LCTRL_UP
  | .make .rctrl => K_RCTRL_DOWN
  | .release .rctrl => K_RCTRL_UP
  | .capsBreak => K_CAPSL

/-- The event is a make or a break of the key. -/
def Concerns (key : Modifier) (event : KeyEvent) : Prop :=
  event = .make key ∨ event = .release key

instance (key : Modifier) (event : KeyEvent) : Decidable (event.Concerns key) :=
  inferInstanceAs (Decidable (_ ∨ _))

/-- The last make or break of a key is a make. -/
def Held (key : Modifier) (events : List KeyEvent) : Prop :=
  (events.filter (Concerns key)).getLast? = some (.make key)

instance (key : Modifier) (events : List KeyEvent) : Decidable (Held key events) :=
  inferInstanceAs (Decidable (_ = _))

/-- Caps Lock is on. -/
def CapsOn (events : List KeyEvent) : Prop := Odd (events.count .capsBreak)

instance (events : List KeyEvent) : Decidable (CapsOn events) :=
  inferInstanceAs (Decidable (Odd _))

/-- Exactly one of Shift and Caps Lock is on. -/
def Shifted (events : List KeyEvent) : Prop :=
  ¬ (Held .lshift events ∨ Held .rshift events ↔ CapsOn events)

instance (events : List KeyEvent) : Decidable (Shifted events) :=
  inferInstanceAs (Decidable (¬ _))

/-- The special keys after an event. -/
def apply (event : KeyEvent) (keys : Keystroke) : Keystroke :=
  match event with
  | .make key => keys ||| key.mask
  | .release key => keys &&& ~~~ key.mask
  | .capsBreak => keys ^^^ CAPSL

end KeyEvent

section Codes

open ScanCode

variable {prefixed : Bool} {byte : UInt8} {bytes : List UInt8} {code : ScanCode}

/-- The bytes end in a prefix that waits for the rest of its code. -/
def ScanCode.unfinishedFrom : Bool → List UInt8 → Bool
  | prefixed, [] => prefixed
  | true, _ :: bytes => unfinishedFrom false bytes
  | false, byte :: bytes => unfinishedFrom (byte = 0xE0) bytes

/-- The code that a byte completes. -/
def ScanCode.completed (prefixed : Bool) (byte : UInt8) : Option ScanCode :=
  if prefixed then some (.extended byte) else if byte = 0xE0 then none else some (.plain byte)

/-- One more byte completes a code, or is a prefix. -/
theorem codesFrom_append (prefixed : Bool) (bytes : List UInt8) (byte : UInt8) :
    codesFrom prefixed (bytes ++ [byte]) =
      codesFrom prefixed bytes ++ (completed (unfinishedFrom prefixed bytes) byte).toList := by
  induction bytes generalizing prefixed with
  | nil =>
      unfold completed
      cases prefixed with
      | true => rfl
      | false => by_cases isPrefix : byte = 0xE0 <;> simp [codesFrom, unfinishedFrom, isPrefix]
  | cons first bytes ih =>
      cases prefixed with
      | true => exact congrArg (ScanCode.extended first :: ·) (ih false)
      | false =>
          by_cases isPrefix : first = 0xE0
          · simp [codesFrom, unfinishedFrom, isPrefix, ih]
          · simp [codesFrom, unfinishedFrom, isPrefix, ih]

theorem unfinishedFrom_append (prefixed : Bool) (bytes : List UInt8) (byte : UInt8) :
    unfinishedFrom prefixed (bytes ++ [byte]) =
      (!unfinishedFrom prefixed bytes && decide (byte = 0xE0)) := by
  induction bytes generalizing prefixed with
  | nil => cases prefixed <;> simp [unfinishedFrom]
  | cons first bytes ih =>
      cases prefixed with
      | true => exact ih false
      | false => exact ih (first = 0xE0)

/-- Each code is completed by one of the bytes. -/
theorem mem_codes_iff : code ∈ codes bytes ↔ ∃ history byte, history ++ [byte] <+: bytes ∧
    completed (unfinishedFrom false history) byte = some code := by
  induction bytes using List.reverseRecOn with
  | nil => simp [codes, codesFrom]
  | append_singleton bytes last ih =>
      unfold codes at ih ⊢
      rw [codesFrom_append, List.mem_append, ih, Option.mem_toList]
      constructor
      · rintro (⟨history, byte, before, completes⟩ | completes)
        · exact ⟨history, byte, before.trans (List.prefix_append bytes [last]), completes⟩
        · exact ⟨bytes, last, List.prefix_rfl, completes⟩
      · rintro ⟨history, byte, before, completes⟩
        rcases List.prefix_concat_iff.mp before with whole | earlier
        · obtain ⟨rfl, same⟩ := List.append_inj' whole rfl
          obtain rfl := List.singleton_inj.mp same
          exact .inr completes
        · exact .inl ⟨history, byte, earlier, completes⟩

end Codes

section Events

open ScanCode KeyEvent

variable {key : Modifier} {event : KeyEvent} {events : List KeyEvent} {keys : Keystroke}
  {c : UInt8} {decoder : Decoder}

theorem Modifier.mask_bit (held key : Modifier) :
    held.mask.getLsbD key.bit = decide (key = held) := by
  cases held <;> cases key <;> decide

theorem Modifier.bit_lt (key : Modifier) : key.bit < 32 := by
  cases key <;> decide

theorem Modifier.caps_bit (key : Modifier) : CAPSL.getLsbD key.bit = false := by
  cases key <;> decide

theorem Modifier.mask_caps (key : Modifier) : key.mask.getLsbD capslBit = false := by
  cases key <;> decide

/-- The bit of a special key after an event. -/
theorem KeyEvent.apply_bit (event : KeyEvent) (keys : Keystroke) (key : Modifier) :
    (event.apply keys).getLsbD key.bit =
      if event = .make key then true
      else if event = .release key then false else keys.getLsbD key.bit := by
  have below := key.bit_lt
  cases event with
  | make held =>
      unfold apply
      rw [BitVec.getLsbD_or, held.mask_bit]
      by_cases same : key = held
      · simp [same]
      · simp [same, Ne.symm same]
  | release held =>
      unfold apply
      rw [BitVec.getLsbD_and, BitVec.getLsbD_not, held.mask_bit]
      by_cases same : key = held
      · simp [same]
      · simp [same, Ne.symm same, below]
  | capsBreak =>
      unfold apply
      rw [BitVec.getLsbD_xor, key.caps_bit]
      simp

/-- The bit of Caps Lock after an event. -/
theorem KeyEvent.apply_caps (event : KeyEvent) (keys : Keystroke) :
    (event.apply keys).getLsbD capslBit =
      (keys.getLsbD capslBit ^^ decide (event = .capsBreak)) := by
  cases event with
  | make key => simp [apply, key.mask_caps]
  | release key =>
      have below : capslBit < 32 := by decide
      unfold apply
      rw [BitVec.getLsbD_and, BitVec.getLsbD_not, key.mask_caps]
      simp [below]
  | capsBreak =>
      have isSet : CAPSL.getLsbD capslBit = true := by decide
      simp [apply, isSet]

theorem KeyEvent.held_append (key : Modifier) (events : List KeyEvent) (event : KeyEvent) :
    Held key (events ++ [event]) ↔
      event = .make key ∨ event ≠ .release key ∧ Held key events := by
  unfold Held
  rw [List.filter_append]
  by_cases concerns : event.Concerns key
  · rw [List.filter_singleton, decide_eq_true concerns]
    rcases concerns with rfl | rfl <;> simp
  · have others : event ≠ .make key ∧ event ≠ .release key := not_or.mp concerns
    simp [concerns, others.1, others.2]

theorem KeyEvent.capsOn_append (events : List KeyEvent) (event : KeyEvent) :
    CapsOn (events ++ [event]) ↔ (CapsOn events ↔ event ≠ .capsBreak) := by
  unfold CapsOn
  rw [List.count_append]
  by_cases isCaps : event = .capsBreak
  · simp [isCaps, Nat.odd_add_one]
  · simp [isCaps]

theorem KeyEvent.number_fields (event : KeyEvent) :
    asciiKey (kSpecKey event.number) = 0 ∧
      (kSpecKey event.number >>> 8) &&& 0xff = event.number := by
  cases event with
  | make key => cases key <;> decide
  | release key => cases key <;> decide
  | capsBreak => decide

theorem Decoder.plainCode_event (happens : (ScanCode.plain c).event = some event) :
    (decoder.plainCode c).1 = kSpecKey event.number ∧
      (decoder.plainCode c).2.specKeysDown = event.apply decoder.specKeysDown ∧
      (decoder.plainCode c).2.multiCode = decoder.multiCode := by
  unfold ScanCode.event at happens
  split at happens
  all_goals cases happens
  all_goals simp_all [plainCode, press, unpress, setLeds, number, apply, LSHIFT, RSHIFT, LALT, LCTRL]

/-- What the first `switch` does with other bytes. -/
theorem Decoder.plainCode_other (none : (ScanCode.plain c).event = none) :
    decoder.plainCode c =
      (if c < 128 then if shiftOn decoder.specKeysDown then tableEntry keybCodesShift c
        else tableEntry keybCodes c else 0, decoder) := by
  have differs : ∀ byte : UInt8, (ScanCode.plain byte).event ≠ Option.none → c ≠ byte := by
    rintro byte isEvent rfl
    exact isEvent none
  unfold plainCode
  rw [if_neg (differs 0xBA (by simp [event])), if_neg (differs 0xAA (by simp [event])),
    if_neg (differs 0x2A (by simp [event])), if_neg (differs 0xB6 (by simp [event])),
    if_neg (differs 0x36 (by simp [event])), if_neg (differs 0x1D (by simp [event])),
    if_neg (differs 0x9D (by simp [event])), if_neg (differs 0x38 (by simp [event])),
    if_neg (differs 0xB8 (by simp [event]))]
  split_ifs <;> rfl

/-- What the second `switch` does with an event: the number of the break of the right Ctrl key is
not shifted. -/
theorem Decoder.extendedCode_event (happens : (ScanCode.extended c).event = some event) :
    (decoder.extendedCode c).1 =
        (if event = .release .rctrl then event.number else kSpecKey event.number) ∧
      (decoder.extendedCode c).2.specKeysDown = event.apply decoder.specKeysDown := by
  unfold ScanCode.event at happens
  split at happens
  all_goals cases happens
  all_goals simp_all [extendedCode, press, unpress, number, apply, RALT, RCTRL]

theorem Decoder.extendedCode_other (none : (ScanCode.extended c).event = none) :
    decoder.extendedCode c = (0, decoder) := by
  have differs : ∀ byte : UInt8, (ScanCode.extended byte).event ≠ Option.none → c ≠ byte := by
    rintro byte isEvent rfl
    exact isEvent none
  unfold extendedCode
  rw [if_neg (differs 0x1D (by simp [event])), if_neg (differs 0x9D (by simp [event])),
    if_neg (differs 0x38 (by simp [event])), if_neg (differs 0xB8 (by simp [event]))]

end Events

section Decoding

open ScanCode KeyEvent

variable {history bytes : List UInt8} {byte : UInt8}

/-- What the decoder keeps, told by the codes that it has read. -/
structure Decoder.Keeps (history : List UInt8) (decoder : Decoder) : Prop where
  held : ∀ key : Modifier,
    decoder.specKeysDown.getLsbD key.bit = true ↔ Held key (events history)
  caps : decoder.specKeysDown.getLsbD capslBit = true ↔ CapsOn (events history)
  multi : decoder.multiCode = unfinishedFrom false history

theorem Decoder.start_keeps : Decoder.start.Keeps [] where
  held := fun key => by cases key <;> decide
  caps := by decide
  multi := rfl

theorem events_append (history : List UInt8) (byte : UInt8) :
    events (history ++ [byte]) = events history ++
      ((completed (unfinishedFrom false history) byte).bind ScanCode.event).toList := by
  unfold events codes
  rw [codesFrom_append, List.filterMap_append]
  cases completed (unfinishedFrom false history) byte with
  | none => rfl
  | some code =>
      cases isEvent : code.event <;> simp [isEvent]

/-- An event that is seen and applied keeps what the decoder knows. -/
theorem Decoder.Keeps.apply {decoder decoder' : Decoder} {event : KeyEvent}
    (keeps : decoder.Keeps history)
    (happens : (completed (unfinishedFrom false history) byte).bind ScanCode.event = some event)
    (applied : decoder'.specKeysDown = event.apply decoder.specKeysDown)
    (multi : decoder'.multiCode = unfinishedFrom false (history ++ [byte])) :
    decoder'.Keeps (history ++ [byte]) where
  held := fun key => by
    rw [events_append, happens, Option.toList_some, held_append, applied, apply_bit,
      ← keeps.held key]
    split_ifs with makes releases <;> simp_all
  caps := by
    rw [events_append, happens, Option.toList_some, capsOn_append, applied, apply_caps,
      ← keeps.caps]
    by_cases isCaps : event = .capsBreak <;> simp [isCaps]
  multi := multi

theorem Decoder.Keeps.stay {decoder decoder' : Decoder} (keeps : decoder.Keeps history)
    (happens : (completed (unfinishedFrom false history) byte).bind ScanCode.event = none)
    (same : decoder'.specKeysDown = decoder.specKeysDown)
    (multi : decoder'.multiCode = unfinishedFrom false (history ++ [byte])) :
    decoder'.Keeps (history ++ [byte]) where
  held := fun key => by
    rw [events_append, happens, Option.toList_none, List.append_nil, same]
    exact keeps.held key
  caps := by
    rw [events_append, happens, Option.toList_none, List.append_nil, same]
    exact keeps.caps
  multi := multi

variable {decoder : Decoder} {code : ScanCode} {event : KeyEvent}

/-- The three ways of `i8042_prepare_char`: a prefix, and the last byte of a code of each kind. -/
theorem Decoder.Keeps.prepare_cases (keeps : decoder.Keeps history) (byte : UInt8) :
    (completed (unfinishedFrom false history) byte = none ∧
        decoder.i8042PrepareChar byte = (0, { decoder with multiCode := true })) ∨
      (completed (unfinishedFrom false history) byte = some (.plain byte) ∧
        decoder.multiCode = false ∧ byte ≠ 0xE0 ∧
        decoder.i8042PrepareChar byte = decoder.plainCode byte) ∨
      (completed (unfinishedFrom false history) byte = some (.extended byte) ∧
        decoder.multiCode = true ∧
        decoder.i8042PrepareChar byte = ((decoder.extendedCode byte).1,
          { (decoder.extendedCode byte).2 with multiCode := false })) := by
  rw [← keeps.multi]
  unfold completed i8042PrepareChar
  cases multi : decoder.multiCode with
  | true => exact .inr (.inr ⟨rfl, rfl, by simp⟩)
  | false =>
      by_cases isPrefix : byte = 0xE0
      · exact .inl ⟨by simp [isPrefix], by simp [isPrefix]⟩
      · exact .inr (.inl ⟨by simp [isPrefix], rfl, isPrefix, by simp [isPrefix]⟩)

/-- One byte keeps what the decoder knows. -/
theorem Decoder.Keeps.prepareChar (keeps : decoder.Keeps history) (byte : UInt8) :
    (decoder.i8042PrepareChar byte).2.Keeps (history ++ [byte]) := by
  have next := unfinishedFrom_append false history byte
  rw [← keeps.multi] at next
  rcases keeps.prepare_cases byte with ⟨completes, result⟩ | ⟨completes, multi, notPrefix, result⟩ |
      ⟨completes, multi, result⟩
  · rw [result]
    apply keeps.stay
    · rw [completes, Option.bind_none]
    · rfl
    · unfold completed at completes
      rw [next]
      rw [← keeps.multi] at completes
      split_ifs at completes with multi isPrefix
      simp [multi, isPrefix]
  · rw [multi] at next
    cases happens : (ScanCode.plain byte).event with
    | some event =>
        obtain ⟨-, applied, kept⟩ := @plainCode_event event byte decoder happens
        rw [result]
        apply keeps.apply
        · rw [completes, Option.bind_some, happens]
        · exact applied
        · rw [kept, multi, next]
          simp [notPrefix]
    | none =>
        rw [result, plainCode_other happens]
        apply keeps.stay
        · rw [completes, Option.bind_some, happens]
        · rfl
        · rw [next, multi]
          simp [notPrefix]
  · rw [multi] at next
    cases happens : (ScanCode.extended byte).event with
    | some event =>
        obtain ⟨-, applied⟩ := @extendedCode_event event byte decoder happens
        rw [result]
        apply keeps.apply
        · rw [completes, Option.bind_some, happens]
        · exact applied
        · rw [next]
          rfl
    | none =>
        rw [result, extendedCode_other happens]
        apply keeps.stay
        · rw [completes, Option.bind_some, happens]
        · rfl
        · rw [next]
          rfl

theorem Decoder.decode_keeps (bytes : List UInt8) : (start.decode bytes).Keeps bytes := by
  induction bytes using List.reverseRecOn with
  | nil => exact start_keeps
  | append_singleton bytes byte ih =>
      unfold decode at ih ⊢
      rw [List.foldl_append]
      exact ih.prepareChar byte

/-- The keystroke of an event. -/
theorem Decoder.Keeps.event_keystroke (keeps : decoder.Keeps history)
    (completes : completed (unfinishedFrom false history) byte = some code)
    (happens : code.event = some event) :
    (decoder.i8042PrepareChar byte).1 =
      if event = .release .rctrl then event.number else kSpecKey event.number := by
  rcases keeps.prepare_cases byte with ⟨completes', result⟩ | ⟨completes', -, -, result⟩ |
      ⟨completes', -, result⟩
  · rw [completes'] at completes
    cases completes
  · obtain rfl := Option.some.inj (completes'.symm.trans completes)
    have notRight : event ≠ .release .rctrl := by
      rintro rfl
      unfold ScanCode.event at happens
      split at happens <;> simp_all
    rw [result, (plainCode_event happens).1, if_neg notRight]
  · obtain rfl := Option.some.inj (completes'.symm.trans completes)
    rw [result]
    exact (extendedCode_event happens).1

theorem land_mask_ne_zero (keys : Keystroke) {bit : Nat} (below : bit < 32) :
    keys &&& (1 <<< bit) ≠ 0 ↔ keys.getLsbD bit = true := by
  have isPower : (1 <<< bit : Keystroke) = BitVec.twoPow 32 bit := (BitVec.twoPow_eq 32 bit).symm
  have nonzero : BitVec.twoPow 32 bit ≠ 0 := by
    intro zero
    have atBit := congrArg (fun word => BitVec.getLsbD word bit) zero
    simp [below] at atBit
  rw [isPower, BitVec.and_twoPow]
  split_ifs with isSet
  · exact iff_of_true nonzero isSet
  · exact iff_of_false (not_not_intro rfl) isSet

/-- `SHIFT_ON` is about one of Shift and Caps Lock. -/
theorem Decoder.Keeps.shiftOn_iff (keeps : decoder.Keeps history) :
    shiftOn decoder.specKeysDown = true ↔ Shifted (events history) := by
  have shift : decoder.specKeysDown &&& (LSHIFT ||| RSHIFT) ≠ 0 ↔
      Held .lshift (events history) ∨ Held .rshift (events history) := by
    rw [BitVec.and_or_distrib_left, ← keeps.held, ← keeps.held,
      ← land_mask_ne_zero _ Modifier.lshift.bit_lt, ← land_mask_ne_zero _ Modifier.rshift.bit_lt]
    exact (not_congr BitVec.or_eq_zero_iff).trans not_and_or
  have caps : decoder.specKeysDown &&& CAPSL ≠ 0 ↔ CapsOn (events history) := by
    rw [← keeps.caps, ← land_mask_ne_zero _ (by decide)]
    rfl
  unfold shiftOn Shifted
  rw [decide_eq_true_iff, ← shift, ← caps]
  generalize decoder.specKeysDown &&& (LSHIFT ||| RSHIFT) = shifts
  generalize decoder.specKeysDown &&& CAPSL = locks
  tauto

/-- What is expected of the decoder at a byte, after the bytes of a history. -/
structure Decoder.Right (history : List UInt8) (byte : UInt8) : Prop where
  held : ∀ key : Modifier,
    (start.decode (history ++ [byte])).specKeysDown.getLsbD key.bit = true ↔
      Held key (events (history ++ [byte]))
  caps : (start.decode (history ++ [byte])).specKeysDown.getLsbD capslBit = true ↔
    CapsOn (events (history ++ [byte]))
  event : ∀ code event, codes (history ++ [byte]) = codes history ++ [code] →
    code.event = some event →
      asciiKey ((start.decode history).i8042PrepareChar byte).1 = 0 ∧
        (((start.decode history).i8042PrepareChar byte).1 >>> 8) &&& 0xff = event.number
  character : byte < 0x80 → history.getLast? ≠ some 0xE0 → (ScanCode.plain byte).event = none →
    ((start.decode history).i8042PrepareChar byte).1 =
      tableEntry (if Shifted (events history) then keybCodesShift else keybCodes) byte
  multi : (start.decode (history ++ [byte])).multiCode = true ↔
    byte = 0xE0 ∧ (start.decode history).multiCode = false

theorem last_of_unfinished (unfinished : unfinishedFrom false history = true) :
    history.getLast? = some 0xE0 := by
  induction history using List.reverseRecOn with
  | nil => cases unfinished
  | append_singleton history last _ =>
      rw [unfinishedFrom_append] at unfinished
      have isPrefix : last = 0xE0 := by
        simp only [Bool.and_eq_true, decide_eq_true_eq] at unfinished
        exact unfinished.2
      rw [isPrefix, List.getLast?_append_of_ne_nil _ (List.cons_ne_nil _ _)]
      rfl

/-- The character of a byte that is no event and does not follow the prefix. -/
theorem Decoder.Keeps.character (keeps : decoder.Keeps history) (small : byte < 0x80)
    (unprefixed : history.getLast? ≠ some 0xE0) (noEvent : (ScanCode.plain byte).event = none) :
    (decoder.i8042PrepareChar byte).1 =
      tableEntry (if Shifted (events history) then keybCodesShift else keybCodes) byte := by
  have finished : unfinishedFrom false history = false :=
    Bool.eq_false_iff.mpr fun unfinished => unprefixed (last_of_unfinished unfinished)
  have notPrefix : byte ≠ 0xE0 := by
    rintro rfl
    exact absurd small (by decide)
  rcases keeps.prepare_cases byte with ⟨completes, -⟩ | ⟨-, -, -, result⟩ | ⟨-, multi, -⟩
  · rw [finished] at completes
    simp [completed, notPrefix] at completes
  · rw [result, plainCode_other noEvent, if_pos small]
    by_cases shifted : Shifted (events history)
    · rw [if_pos (keeps.shiftOn_iff.mpr shifted), if_pos shifted]
    · rw [if_neg (mt keeps.shiftOn_iff.mp shifted), if_neg shifted]
  · rw [keeps.multi, finished] at multi
    cases multi

/-- The decoder is right at a byte unless it breaks the right Ctrl key. -/
theorem Decoder.right_iff (history : List UInt8) (byte : UInt8) :
    Right history byte ↔
      completed (unfinishedFrom false history) byte ≠ some (.extended 0x9D) := by
  have before := decode_keeps history
  have after := decode_keeps (history ++ [byte])
  constructor
  · intro right breaks
    have oneMore : codes (history ++ [byte]) = codes history ++ [.extended 0x9D] := by
      unfold codes
      rw [codesFrom_append, breaks]
      rfl
    have fields := right.event _ (.release .rctrl) oneMore rfl
    rw [before.event_keystroke breaks rfl, if_pos rfl] at fields
    exact absurd fields.1 (by decide)
  · intro notBreak
    refine ⟨after.held, after.caps, ?_, before.character, ?_⟩
    · intro code event oneMore happens
      unfold codes at oneMore
      rw [codesFrom_append] at oneMore
      have completes : completed (unfinishedFrom false history) byte = some code :=
        Option.toList_eq_singleton_iff.mp (List.append_cancel_left oneMore)
      have notRight : event ≠ .release .rctrl := by
        rintro rfl
        apply notBreak
        rw [completes]
        unfold ScanCode.event at happens
        split at happens <;> simp_all
      rw [before.event_keystroke completes happens, if_neg notRight]
      exact event.number_fields
    · rw [after.multi, before.multi, unfinishedFrom_append]
      simp [and_comm]

/-- The decoder is right at every byte if and only if the right Ctrl key is never released. -/
theorem decoder_right_iff (bytes : List UInt8) :
    (∀ history byte, history ++ [byte] <+: bytes → Decoder.Right history byte) ↔
      .extended 0x9D ∉ codes bytes := by
  rw [mem_codes_iff]
  constructor
  · rintro right ⟨history, byte, before, completes⟩
    exact (Decoder.right_iff history byte).mp (right history byte before) completes
  · intro never history byte before
    apply (Decoder.right_iff history byte).mpr
    intro completes
    exact never ⟨history, byte, before, completes⟩

/-- The right Ctrl key is pressed and released: the keystroke of the release has the character 12
and no number. -/
theorem decoder_right_fail :
    ¬ (∀ history byte, history ++ [byte] <+: [0xE0, 0x1D, 0xE0, 0x9D] →
      Decoder.Right history byte) ∧
    ((Decoder.start.decode [0xE0, 0x1D, 0xE0]).i8042PrepareChar 0x9D).1 = 12 := by
  constructor
  · intro right
    have fields := (right [0xE0, 0x1D, 0xE0] 0x9D List.prefix_rfl).event
      (.extended 0x9D) (.release .rctrl) (by decide) rfl
    exact absurd fields.1 (by decide)
  · decide

end Decoding

end Oseer

import Oseer.CStrings
import Oseer.Isolation
import Oseer.ProgramStart
import Oseer.Library.StringVector

/-!
# The arguments of a program

`sys__start_program` copies the arguments of the new process into a block of the kernel heap, and
`kthread_start_process` copies them from there into the stack pool of the process.  Each copy is a
vector of pointers with the strings packed behind it; the pointers of the first are addresses of
the kernel, and those of the second are addresses of the process.
-/

namespace Oseer

open WordMemory ByteMemory ByteMemory.Bytes

/-- The ways in which the copying does not come to its end. -/
inductive ArgStop
  /-- The loops were given too few rounds. -/
  | rounds
  /-- `ASSERT` in `k_u2k_adr` and `k_k2u_adr`. -/
  | badAddress
  /-- A string goes behind the end of the block in the kernel heap. -/
  | outsideBlock
deriving DecidableEq

def orStop {α : Type} (stop : ArgStop) : Option α → Except ArgStop α
  | none => .error stop
  | some answer => .ok answer

/-- `k_k2u_adr`. -/
def Mseg.kK2uAdr (kadr : Nat) (segment : Mseg) : Option Nat :=
  if segment.start ≤ kadr ∧ kadr < add32 segment.start segment.size then
    some (kadr - segment.start)
  else none

section Kernel

/-- The first loop of `sys__start_program`: the number of the arguments and of their bytes. -/
def countArgs (fuel : Nat) (caller : Mseg) (args : Nat) (store : Bytes) :
    Nat → Nat → Nat → Except ArgStop (Nat × Nat)
  | 0, _, _ => .error .rounds
  | rounds + 1, argnum, argsize =>
      if store.load32 (args + 4 * argnum) = 0 then .ok (argnum, argsize)
      else do
        let arg ← orStop .badAddress (caller.kU2kAdr (store.load32 (args + 4 * argnum)))
        let length ← orStop .rounds (strlen fuel store arg)
        countArgs fuel caller args store rounds (argnum + 1) (add32 argsize (length + 1))

/-- The second loop of `sys__start_program`, into a block that ends at `limit`.  A block whose
size has wrapped is too short for the strings. -/
def copyToKernel (fuel limit : Nat) (caller : Mseg) (args kargs : Nat) :
    Nat → Nat → Nat → Bytes → Except ArgStop Bytes
  | 0, _, _, _ => .error .rounds
  | rounds + 1, argnum, karg, store =>
      if store.load32 (args + 4 * argnum) = 0 then
        .ok (store.store32 (kargs + 4 * argnum) 0)
      else do
        let arg ← orStop .badAddress (caller.kU2kAdr (store.load32 (args + 4 * argnum)))
        let length ← orStop .rounds (strlen fuel store arg)
        if limit < karg + length + 1 then throw .outsideBlock
        let store ← orStop .rounds (strcpy fuel karg arg store)
        let store := store.store32 (kargs + 4 * argnum) karg
        let length ← orStop .rounds (strlen fuel store karg)
        copyToKernel fuel limit caller args kargs rounds (argnum + 1) (karg + length + 1) store

/-- The copy of the arguments in `sys__start_program`: the address of the copies. -/
def argsToKernel (fuel : Nat) (caller : Mseg) (kmalloc : Nat → Nat) (param : Nat)
    (store : Bytes) : Except ArgStop (Nat × Bytes) :=
  if param = 0 then .ok (0, store)
  else do
    let args ← orStop .badAddress (caller.kU2kAdr param)
    let (argnum, argsize) ← countArgs fuel caller args store fuel 0 0
    if argnum = 0 then return (0, store)
    let size := add32 ((argnum + 1) * 4) argsize
    let kargs := kmalloc size
    let store ← copyToKernel fuel (kargs + size) caller args kargs fuel 0
      (kargs + (argnum + 1) * 4) store
    return (kargs, store)

end Kernel

section Process

/-- `for ( i = 0; kargs[i]; i++ )`. -/
def countKargs (kargs : Nat) (store : Bytes) : Nat → Nat → Except ArgStop Nat
  | 0, _ => .error .rounds
  | rounds + 1, i =>
      if store.load32 (kargs + 4 * i) = 0 then .ok i else countKargs kargs store rounds (i + 1)

/-- The loop of `kthread_start_process` that copies the arguments. -/
def copyToProcess (fuel : Nat) (proc : Mseg) (kargs args : Nat) :
    Nat → Nat → Nat → Bytes → Except ArgStop Bytes
  | 0, _, _, _ => .error .rounds
  | rounds + 1, i, arg, store => do
      let store ← orStop .rounds (strcpy fuel arg (store.load32 (kargs + 4 * i)) store)
      let uarg ← orStop .badAddress (proc.kK2uAdr arg)
      let store := store.store32 (args + 4 * i) uarg
      let length ← orStop .rounds (strlen fuel store arg)
      if store.load32 (kargs + 4 * (i + 1)) = 0 then
        return store.store32 (args + 4 * (i + 1)) 0
      copyToProcess fuel proc kargs args rounds (i + 1) (arg + length + 1) store

/-- What the first thread gets: the pointer, and the block in the stack pool with the size that
was asked for. -/
structure PassedArgs where
  args : Nat
  block : Nat
  argsize : Nat
  store : Bytes

/-- The copy of the arguments in `kthread_start_process`. -/
def argsToProcess (fuel : Nat) (proc : Mseg) (ffsAlloc : Nat → Nat) (param : Nat)
    (store : Bytes) : Except ArgStop PassedArgs :=
  if param = 0 then .ok ⟨0, 0, 0, store⟩
  else do
    let i ← countKargs param store fuel 0
    let last := store.load32 (param + 4 * (i - 1))
    let length ← orStop .rounds (strlen fuel store last)
    let argsize := sub32 (add32 last (length + 1)) param
    if argsize = 0 then return ⟨0, 0, 0, store⟩
    let block := ffsAlloc argsize
    let store ← copyToProcess fuel proc param block fuel 0 (block + (i + 1) * 4) store
    let args ← orStop .badAddress (proc.kK2uAdr block)
    return ⟨args, block, argsize, store⟩

end Process

variable {caller proc : Mseg} {store : Bytes} {fuel rounds limit args kargs karg argnum argsize
  slot word address i arg : Nat} {text : List UInt8} {texts : List (List UInt8)}
  {region : Nat → Prop}

/-- The strings of a vector are short enough for the rounds. -/
def Enough (fuel : Nat) (texts : List (List UInt8)) : Prop := ∀ text ∈ texts, text.length < fuel

theorem strlen_putText (behind : slot + 4 ≤ address) (nonzero : 0 ∉ text)
    (enough : text.length < fuel) :
    strlen fuel (store.putText slot word address text) address = some text.length := by
  apply strlen_text ⟨nonzero, _⟩ enough
  apply (holds_writeAll (Or.inr _)).mpr writeAll_holds
  rwa [wordBytes_length]

section ToKernel

theorem countArgs_eq
    (vector : StringVector store caller.Inside (caller.kU2kAdr ·) (args + 4 * argnum) texts)
    (enough : Enough fuel texts) (many : texts.length < rounds) (small : argsize < 2 ^ 32) :
    countArgs fuel caller args store rounds argnum argsize =
      .ok (argnum + texts.length, (argsize + (packed texts).length) % 2 ^ 32) := by
  induction texts generalizing argnum argsize rounds with
  | nil =>
      obtain ⟨rounds, rfl⟩ := Nat.exists_eq_add_one_of_ne_zero (Nat.ne_zero_of_lt many)
      rw [countArgs, if_pos vector.1]
      exact congrArg (fun size => Except.ok (argnum, size)) (Nat.mod_eq_of_lt small).symm
  | cons text texts ih =>
      obtain ⟨rounds, rfl⟩ := Nat.exists_eq_add_one_of_ne_zero (Nat.ne_zero_of_lt many)
      obtain ⟨⟨nonzero, -⟩, ⟨address, resolved, held, -⟩, rest⟩ := vector
      dsimp only at resolved
      have enough := List.forall_mem_cons.mp enough
      rw [countArgs, if_neg nonzero, resolved]
      dsimp only [orStop, Bind.bind, Except.bind]
      rw [strlen_text held enough.1]
      dsimp only
      have next : StringVector store caller.Inside (caller.kU2kAdr ·) (args + 4 * (argnum + 1))
        texts := rest
      have bound : add32 argsize (text.length + 1) < 2 ^ 32 := Nat.mod_lt _ (by decide)
      rw [ih next enough.2 (Nat.lt_of_succ_lt_succ many) bound, packed_cons_length, List.length_cons]
      unfold add32
      rw [Nat.mod_add_mod]
      congr 2 <;> omega

/-- One round of the copy into the kernel. -/
theorem copyToKernel_round
    (vector : StringVector store caller.Inside (caller.kU2kAdr ·) (args + 4 * argnum)
      (text :: texts))
    (apart : ∀ i, caller.Inside i → ¬ (kargs ≤ i ∧ i < limit)) (enough : text.length < fuel)
    (behind : kargs + 4 * argnum + 4 ≤ karg) :
    copyToKernel fuel limit caller args kargs (rounds + 1) argnum karg store =
      if limit < karg + text.length + 1 then .error .outsideBlock
      else copyToKernel fuel limit caller args kargs rounds (argnum + 1)
        (karg + text.length + 1) (store.putText (kargs + 4 * argnum) karg karg text) := by
  obtain ⟨⟨nonzero, -⟩, ⟨address, resolved, held, textIn⟩, -⟩ := vector
  dsimp only at resolved
  rw [copyToKernel, if_neg nonzero, resolved]
  dsimp only [orStop, Bind.bind, Except.bind]
  rw [strlen_text held enough]
  dsimp only
  split
  · rfl
  · rename_i fits
    have textApart : store.TextApart (fun i => kargs ≤ i ∧ i < limit) address text :=
      ⟨held, fun i low high => apart i (textIn i low high)⟩
    rw [strcpy_text textApart (fun i low high => by omega) enough]
    have length : strlen fuel (store.putText (kargs + 4 * argnum) karg karg text) karg =
        some text.length :=
      strlen_putText behind held.nonzero enough
    unfold Bytes.putText at length ⊢
    dsimp only
    rw [length]

theorem vector_kept {resolve : Nat → Option Nat} {vector : Nat} {low high : Nat}
    (there : StringVector store region resolve vector texts)
    (apart : ∀ i, region i → ¬ (low ≤ i ∧ i < high))
    (slotIn : low ≤ slot ∧ slot + 4 ≤ high)
    (textIn : low ≤ address ∧ address + text.length + 1 ≤ high) :
    StringVector (store.putText slot word address text) region resolve vector texts := by
  apply there.congr
  intro i inside
  have outside := apart i inside
  apply putText_other <;> omega

/-- The copy into the kernel packs the strings, if they fit into the block. -/
theorem copyToKernel_packs
    (vector : StringVector store caller.Inside (caller.kU2kAdr ·) (args + 4 * argnum) texts)
    (apart : ∀ i, caller.Inside i → ¬ (kargs ≤ i ∧ i < limit))
    (enough : Enough fuel texts) (many : texts.length < rounds)
    (behind : kargs + 4 * argnum + 4 * (texts.length + 1) ≤ karg)
    (fits : karg + (packed texts).length ≤ limit) :
    ∃ store', copyToKernel fuel limit caller args kargs rounds argnum karg store = .ok store' ∧
      Packs id (kargs + 4 * argnum) karg texts store store' := by
  induction texts generalizing argnum karg rounds store with
  | nil =>
      obtain ⟨rounds, rfl⟩ := Nat.exists_eq_add_one_of_ne_zero (Nat.ne_zero_of_lt many)
      rw [copyToKernel, if_pos vector.1]
      exact ⟨_, rfl, packs_nil⟩
  | cons text texts ih =>
      obtain ⟨rounds, rfl⟩ := Nat.exists_eq_add_one_of_ne_zero (Nat.ne_zero_of_lt many)
      rw [packed_cons_length] at fits
      rw [List.length_cons] at behind many
      have enough := List.forall_mem_cons.mp enough
      rw [copyToKernel_round vector apart enough.1 (by omega), if_neg (by omega)]
      have rest : StringVector (store.putText (kargs + 4 * argnum) karg karg text) caller.Inside
          (caller.kU2kAdr ·) (args + 4 * (argnum + 1)) texts :=
        vector_kept vector.2.2 apart (by omega) (by omega)
      have next : kargs + 4 * (argnum + 1) + 4 * (texts.length + 1) ≤ karg + text.length + 1 := by
        omega
      obtain ⟨store', copies, packs⟩ :=
        ih rest enough.2 (Nat.lt_of_succ_lt_succ many) next (by omega)
      exact ⟨store', copies, packs_cons (by omega) packs⟩

/-- Where they do not fit, a string goes behind the end of the block. -/
theorem copyToKernel_outside
    (vector : StringVector store caller.Inside (caller.kU2kAdr ·) (args + 4 * argnum) texts)
    (apart : ∀ i, caller.Inside i → ¬ (kargs ≤ i ∧ i < limit))
    (enough : Enough fuel texts) (many : texts.length < rounds)
    (behind : kargs + 4 * argnum + 4 * (texts.length + 1) ≤ karg)
    (outside : limit < karg + (packed texts).length) (some : texts = [] → karg ≤ limit) :
    copyToKernel fuel limit caller args kargs rounds argnum karg store =
      .error .outsideBlock := by
  induction texts generalizing argnum karg rounds store with
  | nil => exact absurd (some rfl) (Nat.not_le_of_lt outside)
  | cons text texts ih =>
      obtain ⟨rounds, rfl⟩ := Nat.exists_eq_add_one_of_ne_zero (Nat.ne_zero_of_lt many)
      rw [packed_cons_length] at outside
      rw [List.length_cons] at behind many
      have enough := List.forall_mem_cons.mp enough
      rw [copyToKernel_round vector apart enough.1 (by omega)]
      split
      · rfl
      · have rest : StringVector (store.putText (kargs + 4 * argnum) karg karg text) caller.Inside
            (caller.kU2kAdr ·) (args + 4 * (argnum + 1)) texts :=
          vector_kept vector.2.2 apart (by omega) (by omega)
        exact ih rest enough.2 (Nat.lt_of_succ_lt_succ many) (by omega) (by omega)
          (fun _ => by omega)

end ToKernel

section ToProcess

theorem countKargs_eq {resolve : Nat → Option Nat}
    (vector : StringVector store region resolve (kargs + 4 * i) texts)
    (many : texts.length < rounds) :
    countKargs kargs store rounds i = .ok (i + texts.length) := by
  induction texts generalizing i rounds with
  | nil =>
      obtain ⟨rounds, rfl⟩ := Nat.exists_eq_add_one_of_ne_zero (Nat.ne_zero_of_lt many)
      exact if_pos vector.1
  | cons text texts ih =>
      obtain ⟨rounds, rfl⟩ := Nat.exists_eq_add_one_of_ne_zero (Nat.ne_zero_of_lt many)
      have next : StringVector store region resolve (kargs + 4 * (i + 1)) texts := vector.2.2
      rw [countKargs, if_neg vector.1.1, ih next (Nat.lt_of_succ_lt_succ many), List.length_cons]
      congr 1
      omega

theorem Mseg.kK2uAdr_inside {kadr : Nat} (inside : proc.Inside kadr)
    (ends : proc.start + proc.size < 2 ^ 32) : proc.kK2uAdr kadr = some (kadr - proc.start) := by
  unfold kK2uAdr
  rw [add32_of_lt ends]
  exact if_pos inside

theorem Mseg.kU2kAdr_sub {kadr : Nat} (inside : proc.Inside kadr) :
    proc.kU2kAdr (kadr - proc.start) = some kadr := by
  have inSpace := proc.inSpace
  apply Mseg.kU2kAdr_eq_some.mpr
  unfold Inside at inside
  omega

variable {block size : Nat} (apart : ∀ i, region i → ¬ (block ≤ i ∧ i < block + size))
  (inProcess : ∀ i, block ≤ i → i < block + size → proc.Inside i)
  (ends : proc.start + proc.size < 2 ^ 32)

include apart inProcess ends

/-- One round of the copy into the process. -/
theorem copyToProcess_round
    (vector : StringVector store region some (kargs + 4 * i) (text :: texts))
    (enough : text.length < fuel) (behind : block + 4 * i + 4 ≤ arg)
    (fits : arg + text.length + 1 ≤ block + size) :
    copyToProcess fuel proc kargs block (rounds + 1) i arg store =
      let store' := store.putText (block + 4 * i) (arg - proc.start) arg text
      if store'.load32 (kargs + 4 * (i + 1)) = 0 then
        .ok (store'.store32 (block + 4 * (i + 1)) 0)
      else copyToProcess fuel proc kargs block rounds (i + 1) (arg + text.length + 1) store' := by
  obtain ⟨-, ⟨address, resolved, held, textIn⟩, -⟩ := vector
  obtain rfl := Option.some.inj resolved
  have textApart : store.TextApart (fun i => block ≤ i ∧ i < block + size)
      (store.load32 (kargs + 4 * i)) text :=
    ⟨held, fun i low high => apart i (textIn i low high)⟩
  have inside := inProcess arg (by omega) (by omega)
  have length : strlen fuel (store.putText (block + 4 * i) (arg - proc.start) arg text) arg =
      some text.length :=
    strlen_putText behind held.nonzero enough
  unfold Bytes.putText at length ⊢
  rw [copyToProcess, strcpy_text textApart (fun i low high => by omega) enough,
    Mseg.kK2uAdr_inside inside ends]
  dsimp only [orStop, Bind.bind, Except.bind]
  rw [length]
  rfl

/-- The strings are copied, from a vector of the kernel, into a block of the process. -/
theorem copyToProcess_packs
    (vector : StringVector store region some (kargs + 4 * i) (text :: texts))
    (enough : Enough fuel (text :: texts)) (many : texts.length < rounds)
    (behind : block + 4 * i + 4 * (texts.length + 2) ≤ arg)
    (fits : arg + (packed (text :: texts)).length ≤ block + size) :
    ∃ store', copyToProcess fuel proc kargs block rounds i arg store = .ok store' ∧
      Packs (· - proc.start) (block + 4 * i) arg (text :: texts) store store' := by
  induction texts generalizing text i arg rounds store with
  | nil =>
      obtain ⟨rounds, rfl⟩ := Nat.exists_eq_add_one_of_ne_zero (Nat.ne_zero_of_lt many)
      rw [packed_cons_length] at fits
      rw [List.length_nil] at behind
      have enough := List.forall_mem_cons.mp enough
      have rest : StringVector (store.putText (block + 4 * i) (arg - proc.start) arg text) region
          some (kargs + 4 * (i + 1)) [] :=
        vector_kept vector.2.2 apart (by omega) (by omega)
      rw [copyToProcess_round apart inProcess ends vector enough.1 (by omega) (by omega)]
      exact ⟨_, if_pos rest.1, packs_cons behind packs_nil⟩
  | cons second texts ih =>
      obtain ⟨rounds, rfl⟩ := Nat.exists_eq_add_one_of_ne_zero (Nat.ne_zero_of_lt many)
      rw [packed_cons_length] at fits
      rw [List.length_cons] at behind many
      have both := List.forall_mem_cons.mp enough
      have rest : StringVector (store.putText (block + 4 * i) (arg - proc.start) arg text) region
          some (kargs + 4 * (i + 1)) (second :: texts) :=
        vector_kept vector.2.2 apart (by omega) (by omega)
      have next : block + 4 * (i + 1) + 4 * (texts.length + 2) ≤ arg + text.length + 1 := by
        omega
      obtain ⟨store', copies, packs⟩ :=
        ih rest both.2 (Nat.lt_of_succ_lt_succ many) next (by omega)
      rw [copyToProcess_round apart inProcess ends vector both.1 (by omega) (by omega)]
      exact ⟨store', (if_neg rest.1.1).trans copies, packs_cons behind packs⟩

end ToProcess

section Passing

/-- The copies of the arguments in one start of a program: `prepare` is what happens between them,
when the image of the process is put in place. -/
def passArguments (fuel : Nat) (caller proc : Mseg) (kmalloc ffsAlloc : Nat → Nat)
    (prepare : Bytes → Bytes) (param : Nat) (store : Bytes) : Except ArgStop PassedArgs := do
  let (kargs, store) ← argsToKernel fuel caller kmalloc param store
  -- what is written from here on belongs to the second copy
  argsToProcess fuel proc ffsAlloc kargs (prepare store).forget

/-- The kernel block, `size` bytes or what is left of them in 32 bits, and the block of the stack
pool are free and apart from each other; the first is not a part of the caller, and what happens
between the copies leaves it alone. -/
structure ArgBlocks (caller proc : Mseg) (kmalloc ffsAlloc : Nat → Nat) (prepare : Bytes → Bytes)
    (size : Nat) : Prop where
  kargs_ne : kmalloc (size % 2 ^ 32) ≠ 0
  kargs_inSpace : kmalloc (size % 2 ^ 32) + size % 2 ^ 32 ≤ 2 ^ 32
  caller_apart : ∀ i, caller.Inside i →
    ¬ (kmalloc (size % 2 ^ 32) ≤ i ∧ i < kmalloc (size % 2 ^ 32) + size % 2 ^ 32)
  proc_apart : ∀ i, proc.Inside i →
    ¬ (kmalloc (size % 2 ^ 32) ≤ i ∧ i < kmalloc (size % 2 ^ 32) + size % 2 ^ 32)
  args_inside : ∀ i, ffsAlloc (size % 2 ^ 32) ≤ i →
    i < ffsAlloc (size % 2 ^ 32) + size % 2 ^ 32 → proc.Inside i
  proc_ends : proc.start + proc.size < 2 ^ 32
  prepared : ∀ store i, kmalloc (size % 2 ^ 32) ≤ i →
    i < kmalloc (size % 2 ^ 32) + size % 2 ^ 32 → (prepare store).byte i = store.byte i

theorem argSize_eq (texts : List CString) : ProgramKernel.argSize texts = vectorSize texts := by
  unfold ProgramKernel.argSize vectorSize packed
  rw [List.length_flatMap, Nat.mul_comm]
  simp only [List.length_append, List.length_singleton]

/-- The first thread of the process can read the strings, and they were written into the block
that the stack pool gave. -/
structure Delivered (proc : Mseg) (ffsAlloc : Nat → Nat) (texts : List (List UInt8))
    (passed : PassedArgs) : Prop where
  vector : ∃ address, proc.kU2kAdr passed.args = some address ∧
    StringVector passed.store proc.Inside (proc.kU2kAdr ·) address texts
  allocated : passed.block = ffsAlloc passed.argsize
  inside : passed.store.WrittenIn fun i => passed.block ≤ i ∧ i < passed.block + passed.argsize

variable {kmalloc ffsAlloc : Nat → Nat} {prepare : Bytes → Bytes} {param : Nat}

section First

variable (some : texts ≠ []) (param_ne : param ≠ 0)
  (found : caller.kU2kAdr param = Option.some args)
  (vector : StringVector store caller.Inside (caller.kU2kAdr ·) args texts)
  (enough : Enough fuel texts) (many : texts.length < fuel)

include some param_ne found vector enough many

/-- The block that the first copy goes to has the size of the vector, in 32 bits. -/
theorem argsToKernel_eq {size : Nat} (isSize : size = vectorSize texts % 2 ^ 32) :
    argsToKernel fuel caller kmalloc param store =
      (copyToKernel fuel (kmalloc size + size) caller args (kmalloc size) fuel 0
        (kmalloc size + (texts.length + 1) * 4) store).map (kmalloc size, ·) := by
  have counted : countArgs fuel caller args store fuel 0 0 =
      .ok (0 + texts.length, (0 + (packed texts).length) % 2 ^ 32) :=
    countArgs_eq vector enough many (by decide)
  rw [Nat.zero_add, Nat.zero_add] at counted
  have asked : add32 ((texts.length + 1) * 4) ((packed texts).length % 2 ^ 32) = size := by
    unfold add32
    rw [Nat.add_mod_mod, isSize, vectorSize, Nat.mul_comm]
  unfold argsToKernel
  rw [if_neg param_ne, found]
  dsimp only [orStop, Bind.bind, Except.bind]
  rw [counted]
  dsimp only
  rw [if_neg (mt List.length_eq_zero_iff.mp some), asked]
  cases copyToKernel .. <;> rfl

variable (blocks : ArgBlocks caller proc kmalloc ffsAlloc prepare (vectorSize texts))

include blocks

/-- The first copy packs the strings. -/
theorem argsToKernel_packs (small : vectorSize texts < 2 ^ 32) :
    ∃ store', argsToKernel fuel caller kmalloc param store =
        .ok (kmalloc (vectorSize texts), store') ∧
      Packs id (kmalloc (vectorSize texts))
        (kmalloc (vectorSize texts) + (texts.length + 1) * 4) texts store store' := by
  have apart := blocks.caller_apart
  rw [Nat.mod_eq_of_lt small] at apart
  rw [argsToKernel_eq some param_ne found vector enough many (Nat.mod_eq_of_lt small).symm]
  have behind : kmalloc (vectorSize texts) + 4 * 0 + 4 * (texts.length + 1) ≤
      kmalloc (vectorSize texts) + (texts.length + 1) * 4 := by
    omega
  obtain ⟨store', copies, packs⟩ := copyToKernel_packs vector apart enough many behind
    (by unfold vectorSize; omega)
  rw [copies]
  exact ⟨store', rfl, packs⟩

theorem argsToKernel_outside (large : 2 ^ 32 ≤ vectorSize texts) :
    argsToKernel fuel caller kmalloc param store = .error .outsideBlock := by
  have wraps : vectorSize texts % 2 ^ 32 < vectorSize texts :=
    (Nat.mod_lt _ (by decide)).trans_le large
  have behind : kmalloc (vectorSize texts % 2 ^ 32) + 4 * 0 + 4 * (texts.length + 1) ≤
      kmalloc (vectorSize texts % 2 ^ 32) + (texts.length + 1) * 4 := by
    omega
  rw [argsToKernel_eq some param_ne found vector enough many rfl,
    copyToKernel_outside vector blocks.caller_apart enough many behind
      (by unfold vectorSize at wraps ⊢; omega) (fun isEmpty => absurd isEmpty some)]
  rfl

end First

section Second

variable (some : texts ≠ []) (nonzero : ∀ text ∈ texts, 0 ∉ text) (set : kargs ≠ 0)
  (inSpace : kargs + vectorSize texts ≤ 2 ^ 32)
  (held : store.Holds (kargs + (texts.length + 1) * 4) (packed texts))
  (words : store.Holds kargs
    (((places (kargs + (texts.length + 1) * 4) texts).map id ++ [0]).flatMap wordBytes))

include nonzero inSpace held words

theorem kernelVector :
    StringVector store (fun i => kargs ≤ i ∧ i < kargs + vectorSize texts) Option.some kargs
      texts := by
  unfold vectorSize at inSpace ⊢
  apply stringVector_of_holds nonzero held words
  · intro i low high
    omega
  · intro i low high
    omega
  · intro place low high
    exact ⟨by unfold id; omega, by unfold id; omega, rfl⟩

include some set

/-- The last string ends where the vector ends. -/
theorem argsize_eq (enough : Enough fuel texts) :
    ∃ length, strlen fuel store (store.load32 (kargs + 4 * (texts.length - 1))) =
        Option.some length ∧
      sub32 (add32 (store.load32 (kargs + 4 * (texts.length - 1))) (length + 1)) kargs =
        vectorSize texts := by
  unfold vectorSize at inSpace
  obtain ⟨others, last, rfl⟩ := (List.eq_nil_or_concat' texts).resolve_left some
  have total : (packed (others ++ [last])).length = (packed others).length + last.length + 1 :=
    packed_concat_length
  have count : (others ++ [last]).length = others.length + 1 := List.length_append ..
  rw [count] at inSpace held words
  rw [packed_concat, holds_append] at held
  have member : last ∈ others ++ [last] := List.mem_append_right _ (List.mem_singleton_self _)
  have word : store.load32 (kargs + 4 * others.length) =
      kargs + (others.length + 1 + 1) * 4 + (packed others).length := by
    apply load32_of_words words _ (by omega)
    rw [List.map_id, List.getElem?_append_left (List.getElem?_eq_some_iff.mp places_last).1,
      places_last]
  rw [count, Nat.add_sub_cancel, word]
  refine ⟨last.length, strlen_text ⟨nonzero last member, held.2⟩ (enough last member), ?_⟩
  unfold add32 sub32 vectorSize
  rw [count]
  omega

/-- The second copy packs the strings, in a block of the size of the vector. -/
theorem argsToProcess_packs (enough : Enough fuel texts) (many : texts.length < fuel)
    (apart : ∀ i, proc.Inside i → ¬ (kargs ≤ i ∧ i < kargs + vectorSize texts))
    (inside : ∀ i, ffsAlloc (vectorSize texts) ≤ i →
      i < ffsAlloc (vectorSize texts) + vectorSize texts → proc.Inside i)
    (ends : proc.start + proc.size < 2 ^ 32) :
    ∃ store', argsToProcess fuel proc ffsAlloc kargs store =
        .ok ⟨ffsAlloc (vectorSize texts) - proc.start, ffsAlloc (vectorSize texts),
          vectorSize texts, store'⟩ ∧
      Packs (· - proc.start) (ffsAlloc (vectorSize texts))
        (ffsAlloc (vectorSize texts) + (texts.length + 1) * 4) texts store store' := by
  have vector := kernelVector nonzero inSpace held words
  have counted := countKargs_eq (i := 0) vector many
  rw [Nat.zero_add] at counted
  obtain ⟨length, measured, asked⟩ := argsize_eq some nonzero set inSpace held words enough
  have positive : vectorSize texts ≠ 0 := by
    unfold vectorSize
    omega
  have first := inside (ffsAlloc (vectorSize texts)) (Nat.le_refl _) (by omega)
  obtain ⟨text, rest, rfl⟩ := List.exists_cons_of_ne_nil some
  have behind : ffsAlloc (vectorSize (text :: rest)) + 4 * 0 + 4 * (rest.length + 2) ≤
      ffsAlloc (vectorSize (text :: rest)) + ((text :: rest).length + 1) * 4 := by
    rw [List.length_cons]
    omega
  obtain ⟨store', copies, packs⟩ := copyToProcess_packs
    (fun i within block => apart i (inside i block.1 block.2) within) inside ends vector enough
    (Nat.lt_of_succ_lt many) behind (by unfold vectorSize; omega)
  unfold argsToProcess
  rw [if_neg set, counted]
  dsimp only [orStop, Bind.bind, Except.bind]
  rw [measured]
  dsimp only
  rw [asked, if_neg positive, copies]
  dsimp only
  rw [Mseg.kK2uAdr_inside first ends]
  exact ⟨store', rfl, packs⟩

end Second

/-- Where the vector ends, after the second copy, the strings can be read by the process. -/
theorem delivered_of_packs {block : Nat} {store' : Bytes} (nonzero : ∀ text ∈ texts, 0 ∉ text)
    (inside : ∀ i, block ≤ i → i < block + vectorSize texts → proc.Inside i)
    (fresh : store.written = []) (isBlock : block = ffsAlloc (vectorSize texts))
    (packs : Packs (· - proc.start) block (block + (texts.length + 1) * 4) texts store store') :
    Delivered proc ffsAlloc texts ⟨block - proc.start, block, vectorSize texts, store'⟩ := by
  have inSpace := proc.inSpace
  have total : vectorSize texts = 4 * (texts.length + 1) + (packed texts).length := rfl
  constructor
  · refine ⟨block, Mseg.kU2kAdr_sub (inside block (Nat.le_refl _) (by omega)), ?_⟩
    apply stringVector_of_holds nonzero packs.held packs.words
    · intro i low high
      exact inside i low (by omega)
    · intro i low high
      exact inside i (by omega) (by omega)
    · intro place low high
      have first := inside block (Nat.le_refl _) (by omega)
      have here := inside place (by omega) (by omega)
      refine ⟨?_, ?_, Mseg.kU2kAdr_sub here⟩ <;> unfold Mseg.Inside at first here <;> omega
  · exact isBlock
  · intro i member
    rcases packs.written i member with before | inVector | inTexts
    · rw [fresh] at before
      cases before
    · exact ⟨inVector.1, by dsimp only; omega⟩
    · exact ⟨by dsimp only; omega, by dsimp only; omega⟩

/-- The arguments survive the trip from the caller to the new process, unless their size wraps. -/
theorem arguments_delivered (caller proc : Mseg) (kmalloc ffsAlloc : Nat → Nat)
    (prepare : Bytes → Bytes) (param args : Nat) (store : Bytes) (texts : List (List UInt8))
    (some : texts ≠ []) (param_ne : param ≠ 0)
    (found : caller.kU2kAdr param = Option.some args)
    (vector : StringVector store caller.Inside (caller.kU2kAdr ·) args texts)
    (blocks : ArgBlocks caller proc kmalloc ffsAlloc prepare (vectorSize texts)) :
    ∃ bound, ∀ fuel ≥ bound,
      (vectorSize texts < 2 ^ 32 → ∃ passed,
        passArguments fuel caller proc kmalloc ffsAlloc prepare param store = .ok passed ∧
          Delivered proc ffsAlloc texts passed) ∧
      (2 ^ 32 ≤ vectorSize texts →
        passArguments fuel caller proc kmalloc ffsAlloc prepare param store =
          .error .outsideBlock) := by
  refine ⟨vectorSize texts, fun fuel rounds => ?_⟩
  have enough : Enough fuel texts := by
    intro text member
    have short := length_le_packed member
    unfold vectorSize at rounds
    omega
  have many : texts.length < fuel := by
    unfold vectorSize at rounds
    omega
  constructor
  · intro small
    obtain ⟨kept, first, packs⟩ :=
      argsToKernel_packs some param_ne found vector enough many blocks small
    have block : vectorSize texts % 2 ^ 32 = vectorSize texts := Nat.mod_eq_of_lt small
    have total : vectorSize texts = 4 * (texts.length + 1) + (packed texts).length := rfl
    have prepared : ∀ i, kmalloc (vectorSize texts) ≤ i →
        i < kmalloc (vectorSize texts) + vectorSize texts →
        (prepare kept).forget.byte i = kept.byte i := by
      have same := blocks.prepared kept
      rwa [block] at same
    have held : (prepare kept).forget.Holds
        (kmalloc (vectorSize texts) + (texts.length + 1) * 4) (packed texts) := by
      rw [holds_congr fun i low high => prepared i (by omega) (by omega)]
      exact packs.held
    have words := packs.words
    rw [← holds_congr fun i low high => prepared i low (by rw [words_length] at high; omega)]
      at words
    have inSpace := blocks.kargs_inSpace
    have apart := blocks.proc_apart
    have inside := blocks.args_inside
    have set := blocks.kargs_ne
    rw [block] at inSpace apart inside set
    obtain ⟨passed, second, packed⟩ := argsToProcess_packs some vector.nonzero set inSpace held
      words enough many apart inside blocks.proc_ends
    refine ⟨_, ?_, delivered_of_packs vector.nonzero inside rfl rfl packed⟩
    unfold passArguments
    rw [first]
    exact second
  · intro large
    unfold passArguments
    rw [argsToKernel_outside some param_ne found vector enough many blocks large]
    rfl

/-- A process of 256 bytes with the vector of `ls` and `-l` at its address 16. -/
def shellSegment : Mseg := ⟨0x1000, 0x100, by decide, by decide⟩

def shellMemory : Bytes where
  byte address := (wordBytes 28 ++ wordBytes 31 ++ wordBytes 0 ++ literal "ls\x00-l\x00").getD
    (address - 0x1010) 0
  written := []

def shellTexts : List (List UInt8) := [literal "ls", literal "-l"]

theorem shellVector : StringVector shellMemory shellSegment.Inside (shellSegment.kU2kAdr ·) 0x1010
    shellTexts := by
  have inside (i : Nat) (low : 0x1010 ≤ i) (high : i < 0x1010 + 18) : shellSegment.Inside i := by
    change 0x1000 ≤ i ∧ i < 0x1000 + 0x100
    omega
  have words : shellMemory.Holds 0x1010
      (((places 0x101c shellTexts).map (· - 0x1000) ++ [0]).flatMap wordBytes) := by
    decide
  apply stringVector_of_holds (by decide) (by decide) words
  · exact fun i low high => inside i low (high.trans_le (by decide))
  · exact fun i low high => inside i (le_trans (by decide) low) (high.trans_le (by decide))
  · intro place low high
    change place < 0x101c + 6 at high
    have resolved := Mseg.kU2kAdr_sub (inside place (by omega) (by omega))
    exact ⟨by omega, by omega, resolved⟩

theorem arguments_delivered_shell :
    ∃ bound, ∀ fuel ≥ bound,
      (vectorSize shellTexts < 2 ^ 32 → ∃ passed,
        passArguments fuel shellSegment ⟨0x3000, 0x100, by decide, by decide⟩ (fun _ => 0x2000)
            (fun _ => 0x3080) id 16 shellMemory = .ok passed ∧
          Delivered ⟨0x3000, 0x100, by decide, by decide⟩ (fun _ => 0x3080) shellTexts passed) ∧
      (2 ^ 32 ≤ vectorSize shellTexts →
        passArguments fuel shellSegment ⟨0x3000, 0x100, by decide, by decide⟩ (fun _ => 0x2000)
          (fun _ => 0x3080) id 16 shellMemory = .error .outsideBlock) := by
  apply arguments_delivered shellSegment ⟨0x3000, 0x100, by decide, by decide⟩ (fun _ => 0x2000)
    (fun _ => 0x3080) id 16 0x1010 shellMemory shellTexts (by decide) (by decide) (by decide)
    shellVector
  constructor
  · decide
  · decide
  · intro i inside
    change 0x1000 ≤ i ∧ i < 0x1000 + 0x100 at inside
    change ¬ (0x2000 ≤ i ∧ i < 0x2000 + 18)
    omega
  · intro i inside
    change 0x3000 ≤ i ∧ i < 0x3000 + 0x100 at inside
    change ¬ (0x2000 ≤ i ∧ i < 0x2000 + 18)
    omega
  · intro i low high
    change i < 0x3080 + 18 at high
    change 0x3000 ≤ i ∧ i < 0x3000 + 0x100
    omega
  · decide
  · exact fun _ _ _ _ => rfl

end Passing

end Oseer

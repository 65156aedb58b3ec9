import Oseer.Alarm
import Oseer.Library.Results

/-!
# Rules for programs that set alarms

`Ensures` is a partial correctness triple for a program that may call
`k_alarm_set`, relative to the way a nested call runs: the rules are those of a
program logic, with one rule for each constructor of a program.
-/

namespace Oseer

namespace Prog

open Results

variable {W α β : Type} {call : AlarmCall W} {P P' : Alarms W → Prop}
  {Q Q' : α → Alarms W → Prop} {R : β → Alarms W → Prop}

/-- Where the program runs from a state that satisfies `P` and ends, its result and
the state then satisfy `Q`. -/
def Ensures (call : AlarmCall W) (P : Alarms W → Prop) (prog : Prog W α)
    (Q : α → Alarms W → Prop) : Prop :=
  ∀ alarms ran, P alarms → prog.run call alarms = .ok ran → Q ran.1 ran.2

theorem run_work {change : W → Except Fault W} {next : W → Prog W α} {alarms : Alarms W} :
    (work change next).run call alarms = (change alarms.world).bind fun world =>
      (next world).run call { alarms with world := world } := rfl

theorem run_alarmSet {id : Ptr} {alarm : Alarm} {next : Prog W α} {alarms : Alarms W} :
    (alarmSet id alarm next).run call alarms =
      (call id alarm alarms).bind fun alarms => next.run call alarms := rfl

/-- Programs run one after the other. -/
theorem run_bind (first : Prog W α) (second : α → Prog W β) (alarms : Alarms W) :
    (first >>= second).run call alarms =
      (first.run call alarms).bind fun ran => (second ran.1).run call ran.2 := by
  change (first.bind second).run call alarms = _
  induction first generalizing alarms with
  | done value => rfl
  | work change next ih =>
      rw [Prog.bind, run_work, run_work]
      cases change alarms.world with
      | error fault => rfl
      | ok world => exact ih world { alarms with world := world }
  | alarmSet id alarm next ih =>
      rw [Prog.bind, run_alarmSet, run_alarmSet]
      cases call id alarm alarms with
      | error fault => rfl
      | ok alarms => exact ih alarms

theorem run_get {next : W → Prog W α} {alarms : Alarms W} :
    (Prog.get >>= next).run call alarms = (next alarms.world).run call alarms := rfl

theorem run_modify {change : W → W} {next : Unit → Prog W α} {alarms : Alarms W} :
    (Prog.modify change >>= next).run call alarms =
      (next ()).run call { alarms with world := change alarms.world } := rfl

theorem run_attempt {change : W → Except Fault W} {next : Unit → Prog W α} {alarms : Alarms W} :
    (Prog.attempt change >>= next).run call alarms = (change alarms.world).bind fun world =>
      (next ()).run call { alarms with world := world } := rfl

theorem Ensures.pure {value : α} : Ensures call (Q value) (pure value : Prog W α) Q := by
  intro alarms ran pre runs
  obtain rfl := Except.ok.inj runs
  exact pre

theorem Ensures.bind {first : Prog W α} {second : α → Prog W β}
    (before : Ensures call P first Q) (after : ∀ value, Ensures call (Q value) (second value) R) :
    Ensures call P (first >>= second) R := by
  intro alarms ran pre runs
  rw [run_bind] at runs
  obtain ⟨middle, runsFirst, runsSecond⟩ := bind_ok runs
  exact after middle.1 middle.2 ran (before alarms middle pre runsFirst) runsSecond

theorem Ensures.mono {prog : Prog W α} (ensures : Ensures call P prog Q)
    (before : ∀ alarms, P' alarms → P alarms) (after : ∀ value alarms, Q value alarms →
      Q' value alarms) : Ensures call P' prog Q' :=
  fun alarms ran pre runs => after _ _ (ensures alarms ran (before alarms pre) runs)

theorem Ensures.read :
    Ensures call P Prog.get fun world alarms => world = alarms.world ∧ P alarms := by
  intro alarms ran pre runs
  obtain rfl := Except.ok.inj runs
  exact ⟨rfl, pre⟩

theorem Ensures.modify {change : W → W} {Q : Unit → Alarms W → Prop} :
    Ensures call (fun alarms => Q () { alarms with world := change alarms.world })
      (Prog.modify change) Q := by
  intro alarms ran pre runs
  obtain rfl := Except.ok.inj runs
  exact pre

theorem Ensures.attempt {change : W → Except Fault W} {Q : Unit → Alarms W → Prop} :
    Ensures call
      (fun alarms => ∀ world, change alarms.world = .ok world →
        Q () { alarms with world := world })
      (Prog.attempt change) Q := by
  intro alarms ran pre runs
  obtain ⟨world, changed, runs⟩ := bind_ok runs
  obtain rfl := Except.ok.inj runs
  exact pre world changed

theorem Ensures.setAlarm {id : Ptr} {alarm : Alarm} {Q : Unit → Alarms W → Prop} :
    Ensures call
      (fun alarms => ∀ alarms', call id alarm alarms = .ok alarms' → Q () alarms')
      (Prog.setAlarm id alarm) Q := by
  intro alarms ran pre runs
  obtain ⟨alarms', called, runs⟩ := bind_ok runs
  obtain rfl := Except.ok.inj runs
  exact pre alarms' called

theorem Ensures.ite {condition : Prop} [Decidable condition] {yes no : Prog W α}
    (whenTrue : condition → Ensures call P yes Q) (whenFalse : ¬ condition → Ensures call P no Q) :
    Ensures call P (if condition then yes else no) Q := by
  split
  · exact whenTrue ‹_›
  · exact whenFalse ‹_›

section Agree

variable {call' : AlarmCall W} {prog prog' first first' : Prog W α} {second second' : α → Prog W β}

/-- From the states that satisfy `P` the second program runs, with its nested calls, as the
first one does with its own. -/
def Agrees (call call' : AlarmCall W) (P : Alarms W → Prop) (prog prog' : Prog W α) : Prop :=
  ∀ alarms, P alarms → prog'.run call' alarms = prog.run call alarms

theorem Agrees.mono (agrees : Agrees call call' P prog prog')
    (before : ∀ alarms, P' alarms → P alarms) : Agrees call call' P' prog prog' :=
  fun alarms pre => agrees alarms (before alarms pre)

/-- Programs agree one after the other, where the first one ensures what the second ones
need. -/
theorem Agrees.bind (before : Agrees call call' P first first') (reaches : Ensures call P first Q)
    (after : ∀ value, Agrees call call' (Q value) (second value) (second' value)) :
    Agrees call call' P (first >>= second) (first' >>= second') := by
  intro alarms pre
  rw [run_bind, run_bind, before alarms pre]
  cases runs : first.run call alarms with
  | error fault => rfl
  | ok middle => exact after middle.1 middle.2 (reaches alarms middle pre runs)

theorem Agrees.pure {value : α} : Agrees call call' P (pure value : Prog W α) (pure value) :=
  fun _ _ => rfl

theorem Agrees.read : Agrees call call' P (Prog.get : Prog W W) Prog.get := fun _ _ => rfl

theorem Agrees.modify {change : W → W} :
    Agrees call call' P (Prog.modify change) (Prog.modify change) := fun _ _ => rfl

theorem Agrees.attempt {change : W → Except Fault W} :
    Agrees call call' P (Prog.attempt change) (Prog.attempt change) := fun _ _ => rfl

theorem Agrees.setAlarm {id : Ptr} {alarm : Alarm}
    (same : ∀ alarms, P alarms → call' id alarm alarms = call id alarm alarms) :
    Agrees call call' P (Prog.setAlarm id alarm) (Prog.setAlarm id alarm) := by
  intro alarms pre
  unfold Prog.setAlarm
  rw [run_alarmSet, run_alarmSet, same alarms pre]
  rfl

theorem Agrees.ite {condition : Prop} [Decidable condition] {yes no yes' no' : Prog W α}
    (whenTrue : condition → Agrees call call' P yes yes')
    (whenFalse : ¬ condition → Agrees call call' P no no') :
    Agrees call call' P (if condition then yes else no) (if condition then yes' else no') := by
  split
  · exact whenTrue ‹_›
  · exact whenFalse ‹_›

end Agree

section Relate

variable {S : W → W → Prop} {first : Prog W α} {second : α → Prog W β}

/-- From the states that satisfy `P` the program changes the memory within a relation. -/
def Relates (S : W → W → Prop) (call : AlarmCall W) (P : Alarms W → Prop) (prog : Prog W α) :
    Prop :=
  ∀ alarms ran, P alarms → prog.run call alarms = .ok ran → S alarms.world ran.2.world

theorem Relates.mono {prog : Prog W α} (relates : Relates S call P prog)
    (before : ∀ alarms, P' alarms → P alarms) : Relates S call P' prog :=
  fun alarms ran pre runs => relates alarms ran (before alarms pre) runs

/-- Programs that run one after the other, where the first one ensures what the second ones
need. -/
theorem Relates.bind (trans : ∀ one two three, S one two → S two three → S one three)
    (before : Relates S call P first) (reaches : Ensures call P first Q)
    (after : ∀ value, Relates S call (Q value) (second value)) :
    Relates S call P (first >>= second) := by
  intro alarms ran pre runs
  rw [run_bind] at runs
  obtain ⟨middle, runsFirst, runsSecond⟩ := bind_ok runs
  apply trans _ _ _ (before alarms middle pre runsFirst)
  exact after middle.1 middle.2 ran (reaches alarms middle pre runsFirst) runsSecond

theorem Relates.pure (refl : ∀ world, S world world) {value : α} :
    Relates S call P (pure value : Prog W α) := by
  intro alarms ran _ runs
  obtain rfl := Except.ok.inj runs
  exact refl _

theorem Relates.read (refl : ∀ world, S world world) : Relates S call P Prog.get := by
  intro alarms ran _ runs
  obtain rfl := Except.ok.inj runs
  exact refl _

theorem Relates.modify {change : W → W} (within : ∀ alarms, P alarms →
    S alarms.world (change alarms.world)) : Relates S call P (Prog.modify change) := by
  intro alarms ran pre runs
  obtain rfl := Except.ok.inj runs
  exact within alarms pre

theorem Relates.attempt {change : W → Except Fault W} (within : ∀ alarms world, P alarms →
    change alarms.world = .ok world → S alarms.world world) :
    Relates S call P (Prog.attempt change) := by
  intro alarms ran pre runs
  obtain ⟨world, changed, runs⟩ := bind_ok runs
  obtain rfl := Except.ok.inj runs
  exact within alarms world pre changed

theorem Relates.setAlarm {id : Ptr} {alarm : Alarm} (within : ∀ alarms alarms', P alarms →
    call id alarm alarms = .ok alarms' → S alarms.world alarms'.world) :
    Relates S call P (Prog.setAlarm id alarm) := by
  intro alarms ran pre runs
  obtain ⟨alarms', called, runs⟩ := bind_ok runs
  obtain rfl := Except.ok.inj runs
  exact within alarms alarms' pre called

theorem Relates.ite {condition : Prop} [Decidable condition] {yes no : Prog W α}
    (whenTrue : condition → Relates S call P yes)
    (whenFalse : ¬ condition → Relates S call P no) :
    Relates S call P (if condition then yes else no) := by
  split
  · exact whenTrue ‹_›
  · exact whenFalse ‹_›

end Relate

end Prog

end Oseer

import Mathlib.Order.BooleanAlgebra.Set
import Mathlib.Logic.Relation
import Oseer.Alarm
import Oseer.Library.Results

/-!
# The list of active alarms

Between two operations `kalarms` is sorted by expiration time and holds the
alarms that exist and are active.  The loop of `k_schedule_alarms` keeps this
invariant whenever it runs the action of an alarm, so that an action may enter
`k_alarm_set` again.
-/

namespace Oseer

open LinkedRing Results

namespace Alarms

variable {W : Type}

/-- The memory at this address is an alarm. -/
def Marked (alarms : Alarms W) (id : Ptr) : Prop := (alarms.kalarm id).magic = ALARM_MAGIC

/-- The list of alarms holds exactly those of the alarms `live` that are active, in
order. -/
structure Listed (alarms : Alarms W) (live : Set Ptr) (entries : List Ptr) : Prop where
  linked : alarms.kalarms.Linked fun _ => entries
  sorted : Lists.Sorted (alarmCmp alarms.kalarm) entries
  mem_iff : ∀ id, id ∈ entries ↔ id ∈ live ∧ (alarms.kalarm id).active = true
  marked_iff : ∀ id, alarms.Marked id ↔ id ∈ live
  pointer : ∀ id ∈ live, 0 < id ∧ id < addressCount

/-- The alarm `id` exists and is out of the list; the others are as they should
be. -/
structure Loose (alarms : Alarms W) (live : Set Ptr) (entries : List Ptr) (id : Ptr) :
    Prop where
  linked : alarms.kalarms.Linked fun _ => entries
  sorted : Lists.Sorted (alarmCmp alarms.kalarm) entries
  mem_iff : ∀ other, other ≠ id →
    (other ∈ entries ↔ other ∈ live ∧ (alarms.kalarm other).active = true)
  notMem : id ∉ entries
  mem_live : id ∈ live
  marked_iff : ∀ id, alarms.Marked id ↔ id ∈ live
  pointer : ∀ other ∈ live, 0 < other ∧ other < addressCount

variable {alarms alarms' : Alarms W} {entries rest : List Ptr} {id first : Ptr}
  {live : Set Ptr} {change : KAlarm → KAlarm}

theorem Listed.nodup (listed : Listed alarms live entries) : entries.Nodup :=
  (List.nodup_cons.mp (listed.linked.nodup ())).2

section Order

theorem alarmCmp_orders (kalarm : Ptr → KAlarm) : Lists.Orders (alarmCmp kalarm) where
  swap := by
    intro a b le
    rcases Time.timeCmp_le_total (kalarm b).alarm.expTime (kalarm a).alarm.expTime
      with le' | lt
    · exact le'
    · simp only [alarmCmp] at le
      omega
  trans := fun _ _ _ first second => Time.timeCmp_le_trans first second

theorem sorted_congr {kalarm kalarm' : Ptr → KAlarm}
    (sorted : Lists.Sorted (alarmCmp kalarm) entries)
    (same : ∀ id ∈ entries, (kalarm' id).alarm.expTime = (kalarm id).alarm.expTime) :
    Lists.Sorted (alarmCmp kalarm') entries := by
  refine List.Pairwise.imp_of_mem (fun {a b} memA memB le => ?_) sorted
  unfold alarmCmp
  rw [same a memA, same b memB]
  exact le

end Order

section Fields

@[simp]
theorem setKalarm_same :
    (alarms.setKalarm id change).kalarm id = change (alarms.kalarm id) := by
  simp [setKalarm]

theorem setKalarm_other {other : Ptr} (different : other ≠ id) :
    (alarms.setKalarm id change).kalarm other = alarms.kalarm other := by
  simp [setKalarm, different]

@[simp]
theorem setKalarm_kalarms : (alarms.setKalarm id change).kalarms = alarms.kalarms := rfl

@[simp]
theorem onWorld_kalarm {onWorld : W → W} :
    (alarms.onWorld onWorld).kalarm = alarms.kalarm := rfl

theorem sorted_setKalarm (sorted : Lists.Sorted (alarmCmp alarms.kalarm) entries)
    (notMem : id ∉ entries) :
    Lists.Sorted (alarmCmp (alarms.setKalarm id change).kalarm) entries := by
  refine sorted_congr sorted fun other mem => ?_
  have different : other ≠ id := fun same => notMem (same ▸ mem)
  rw [setKalarm_other different]

/-- The invariant does not look at the rest of the memory, nor at other fields of the
alarms. -/
theorem Listed.congr (listed : Listed alarms live entries)
    (list : alarms'.kalarms = alarms.kalarms)
    (expTime : ∀ id, (alarms'.kalarm id).alarm.expTime = (alarms.kalarm id).alarm.expTime)
    (active : ∀ id, (alarms'.kalarm id).active = (alarms.kalarm id).active)
    (magic : ∀ id, (alarms'.kalarm id).magic = (alarms.kalarm id).magic) :
    Listed alarms' live entries where
  linked := list ▸ listed.linked
  sorted := sorted_congr listed.sorted fun id _ => expTime id
  mem_iff := fun id => by
    rw [listed.mem_iff, active]
  marked_iff := fun id => by
    rw [Marked, magic]
    exact listed.marked_iff id
  pointer := listed.pointer

theorem Listed.world (listed : Listed alarms live entries) (world : W)
    (events : List (AlarmEvent W)) :
    Listed { alarms with world := world, events := events } live entries :=
  listed.congr rfl (fun _ => rfl) (fun _ => rfl) fun _ => rfl

theorem setKalarm_field {α : Type} (field : KAlarm → α)
    (kept : field (change (alarms.kalarm id)) = field (alarms.kalarm id)) (other : Ptr) :
    field ((alarms.setKalarm id change).kalarm other) = field (alarms.kalarm other) := by
  by_cases same : other = id
  · subst same
    rw [setKalarm_same, kept]
  · rw [setKalarm_other same]

end Fields

section Moves

/-- The first alarm leaves the list. -/
theorem Listed.removeFirst (listed : Listed alarms live (first :: rest)) :
    (alarms.kalarms.listRemove () FIRST 0).1 = first ∧
      Loose { alarms with kalarms := (alarms.kalarms.listRemove () FIRST 0).2 } live rest
        first := by
  have mem : first ∈ first :: rest := by simp
  have same : alarms.kalarms.listRemove () FIRST 0 = alarms.kalarms.listRemove () FIRST first :=
    listed.linked.listRemove_first rfl
  have removed := listed.linked.remove_single FIRST mem
  have nodup : (first :: rest).Nodup := listed.nodup
  have erased : (first :: rest).erase first = rest := by simp
  rw [erased] at removed
  rw [same]
  refine ⟨removed.1, removed.2, (List.pairwise_cons.mp listed.sorted).2, fun other different => ?_,
    (List.nodup_cons.mp nodup).1, ((listed.mem_iff first).mp mem).1, listed.marked_iff,
    listed.pointer⟩
  have iff := listed.mem_iff other
  rw [List.mem_cons, or_iff_right different] at iff
  exact iff

/-- An alarm is taken out of the list, if it is active. -/
theorem Listed.loosen (listed : Listed alarms live entries) (memLive : id ∈ live) :
    Loose (if (alarms.kalarm id).active then alarms.listRemove id else alarms) live
      (entries.erase id) id := by
  have nodup : entries.Nodup := listed.nodup
  have kept : ∀ other, other ≠ id → (other ∈ entries.erase id ↔
      other ∈ live ∧ (alarms.kalarm other).active = true) := by
    intro other different
    rw [List.mem_erase_of_ne different, listed.mem_iff]
  split_ifs with active
  · have mem := (listed.mem_iff id).mpr ⟨memLive, active⟩
    exact
      { linked := (listed.linked.remove_single FIRST mem).2
        sorted := listed.sorted.sublist (List.erase_sublist ..)
        mem_iff := kept
        notMem := nodup.not_mem_erase
        mem_live := memLive
        marked_iff := listed.marked_iff
        pointer := listed.pointer }
  · have notMem : id ∉ entries := fun mem => active ((listed.mem_iff id).mp mem).2
    have same : entries.erase id = entries := List.erase_of_not_mem notMem
    exact
      { linked := same.symm ▸ listed.linked
        sorted := same.symm ▸ listed.sorted
        mem_iff := kept
        notMem := same.symm ▸ notMem
        mem_live := memLive
        marked_iff := listed.marked_iff
        pointer := listed.pointer }

theorem marked_setKalarm (marked : ∀ id, alarms.Marked id ↔ id ∈ live) (memLive : id ∈ live)
    (magic : (change (alarms.kalarm id)).magic = ALARM_MAGIC) (other : Ptr) :
    (alarms.setKalarm id change).Marked other ↔ other ∈ live := by
  by_cases same : other = id
  · subst same
    simp [Marked, magic, memLive]
  · rw [Marked, setKalarm_other same]
    exact marked other

theorem Loose.setKalarm (loose : Loose alarms live entries id)
    (magic : (change (alarms.kalarm id)).magic = ALARM_MAGIC) :
    Loose (alarms.setKalarm id change) live entries id where
  linked := loose.linked
  sorted := sorted_setKalarm loose.sorted loose.notMem
  mem_iff := fun other different => by
    rw [setKalarm_other different]
    exact loose.mem_iff other different
  notMem := loose.notMem
  mem_live := loose.mem_live
  marked_iff := marked_setKalarm loose.marked_iff loose.mem_live magic
  pointer := loose.pointer

theorem Loose.magic (loose : Loose alarms live entries id) :
    (alarms.kalarm id).magic = ALARM_MAGIC :=
  (loose.marked_iff id).mpr loose.mem_live

theorem Loose.settle (loose : Loose alarms live entries id)
    (inactive : (alarms.kalarm id).active = false) : Listed alarms live entries where
  linked := loose.linked
  sorted := loose.sorted
  mem_iff := fun other => by
    by_cases same : other = id
    · subst same
      simp [loose.notMem, inactive]
    · exact loose.mem_iff other same
  marked_iff := loose.marked_iff
  pointer := loose.pointer

/-- The list is short enough for its loops. -/
theorem Loose.length_lt (loose : Loose alarms live entries id) : entries.length < addressCount := by
  apply length_lt_addressCount (loose.linked.nodup ())
  intro other inEntries
  have different : other ≠ id := fun same => loose.notMem (same ▸ inEntries)
  exact (loose.pointer other ((loose.mem_iff other different).mp inEntries).1).2

/-- An alarm out of the list enters it. -/
theorem Loose.sortAdd (loose : Loose alarms live entries id)
    (active : (alarms.kalarm id).active = true) :
    ∃ before after, entries = before ++ after ∧
      Listed (alarms.sortAdd id) live (before ++ id :: after) := by
  have nonzero : id ≠ 0 := (loose.pointer id loose.mem_live).1.ne'
  obtain ⟨before, after, place, sorted, linked⟩ : ∃ before after, entries = before ++ after ∧
      Lists.Sorted (alarmCmp alarms.kalarm) (before ++ id :: after) ∧
      (alarms.sortAdd id).kalarms.Linked
        (Function.update (fun _ : Unit => entries) () (before ++ id :: after)) :=
    loose.linked.sortAdd (alarmCmp_orders alarms.kalarm) loose.sorted loose.length_lt nonzero
      fun _ => loose.notMem
  have only : Function.update (fun _ : Unit => entries) () (before ++ id :: after) =
      fun _ => before ++ id :: after := by
    funext
    rfl
  rw [only] at linked
  refine ⟨before, after, place, linked, sorted, fun other => ?_, loose.marked_iff,
    loose.pointer⟩
  by_cases same : other = id
  · subst same
    simp only [List.mem_append, List.mem_cons, true_or, or_true, true_iff]
    exact ⟨loose.mem_live, active⟩
  · have iff := loose.mem_iff other same
    rw [place] at iff
    simp only [List.mem_append, List.mem_cons, same, false_or] at iff ⊢
    exact iff

theorem Loose.world (loose : Loose alarms live entries id) (change : W → W) :
    Loose (alarms.onWorld change) live entries id :=
  ⟨loose.linked, loose.sorted, loose.mem_iff, loose.notMem, loose.mem_live, loose.marked_iff,
    loose.pointer⟩

/-- An alarm out of the list may end. -/
theorem Loose.remove (loose : Loose alarms live entries id)
    (magic : (change (alarms.kalarm id)).magic ≠ ALARM_MAGIC) :
    Listed (alarms.setKalarm id change) (live \ {id}) entries where
  linked := loose.linked
  sorted := sorted_setKalarm loose.sorted loose.notMem
  mem_iff := fun other => by
    by_cases same : other = id
    · subst same
      simp [loose.notMem]
    · rw [setKalarm_other same, loose.mem_iff other same]
      simp [same]
  marked_iff := fun other => by
    by_cases same : other = id
    · subst same
      simp [Marked, magic]
    · rw [Marked, setKalarm_other same]
      simpa [Marked, same] using loose.marked_iff other
  pointer := fun other mem => loose.pointer other mem.1

/-- A new alarm is out of the list. -/
theorem Listed.create (listed : Listed alarms live entries) (unused : id ∉ live)
    (pointer : 0 < id ∧ id < addressCount)
    (magic : (change (alarms.kalarm id)).magic = ALARM_MAGIC) :
    Loose (alarms.setKalarm id change) (insert id live) entries id := by
  have notMem : id ∉ entries := fun mem => unused ((listed.mem_iff id).mp mem).1
  exact
    { linked := listed.linked
      sorted := sorted_setKalarm listed.sorted notMem
      mem_iff := fun other different => by
        rw [setKalarm_other different, listed.mem_iff other]
        simp [different]
      notMem := notMem
      mem_live := by simp
      marked_iff := fun other => by
        by_cases same : other = id
        · subst same
          simp [Marked, magic]
        · rw [Marked, setKalarm_other same]
          simpa [Marked, same] using listed.marked_iff other
      pointer := fun other mem => by
        rcases mem with rfl | old
        · exact pointer
        · exact listed.pointer other old }

/-- An expired alarm is put back, or rests. -/
theorem Loose.rearm (loose : Loose alarms live entries id)
    (active : (alarms.kalarm id).active = true) :
    ∃ entries', Listed (alarms.rearm id) live entries' := by
  unfold Alarms.rearm
  split_ifs
  · have moved : Loose (alarms.setKalarm id fun kalarm => { kalarm with alarm :=
        { kalarm.alarm with expTime := Time.timeAdd kalarm.alarm.expTime kalarm.alarm.period } })
        live entries id := loose.setKalarm loose.magic
    obtain ⟨before, after, -, listed⟩ := moved.sortAdd (by rw [setKalarm_same]; exact active)
    exact ⟨_, listed⟩
  · refine ⟨entries, Loose.settle (loose.setKalarm ?_) ?_⟩
    · exact loose.magic
    · rw [setKalarm_same]

theorem Loose.activate (loose : Loose alarms live entries id) :
    ∃ entries', Listed (alarms.activate id) live entries' := by
  unfold Alarms.activate
  dsimp only
  split_ifs
  · have moved : Loose (alarms.setKalarm id fun kalarm => { kalarm with active := true })
        live entries id := loose.setKalarm loose.magic
    obtain ⟨before, after, -, listed⟩ := moved.sortAdd (by rw [setKalarm_same])
    exact ⟨_, listed⟩
  · refine ⟨entries, Loose.settle (loose.setKalarm ?_) ?_⟩
    · exact loose.magic
    · rw [setKalarm_same]

end Moves

section Operations

/-- The invariant of the list of alarms. -/
def ListSound (live : Set Ptr) (alarms : Alarms W) : Prop :=
  ∃ entries, Listed alarms live entries

/-- A nested call keeps the invariant. -/
def Keeps (live : Set Ptr) (call : AlarmCall W) : Prop :=
  ∀ id alarm alarms alarms', ListSound live alarms → call id alarm alarms = .ok alarms' →
    ListSound live alarms'

variable {host : Host W} {call : AlarmCall W} {fuel count : Nat} {refTime : Time}
  {alarm : Alarm} {result : Nat × Alarms W}

theorem ListSound.world (sound : ListSound live alarms) (world : W) (events : List (AlarmEvent W)) :
    ListSound live { alarms with world := world, events := events } :=
  sound.imp fun _ listed => listed.world world events

theorem ListSound.run {α : Type} {prog : Prog W α} {ran : α × Alarms W} (keeps : Keeps live call)
    (sound : ListSound live alarms) (runs : prog.run call alarms = .ok ran) : ListSound live ran.2 := by
  induction prog generalizing alarms with
  | done value =>
      obtain rfl := Except.ok.inj runs
      exact sound
  | work change next ih =>
      obtain ⟨world, -, runs⟩ := bind_ok runs
      exact ih world (sound.world world alarms.events) runs
  | alarmSet id alarm next ih =>
      obtain ⟨alarms', called, runs⟩ := bind_ok runs
      exact ih (keeps id alarm alarms alarms' sound called) runs

theorem ListSound.runAction (keeps : Keeps live call) (sound : ListSound live alarms)
    (runs : alarms.runAction host call first = .ok result) : ListSound live result.2 := by
  unfold Alarms.runAction at runs
  dsimp only at runs
  split_ifs at runs
  · obtain ⟨world, -, rfl⟩ := map_ok runs
    exact sound.world world alarms.events
  · obtain ⟨ran, ranOk, rfl⟩ := map_ok runs
    have kept : ListSound live ran.2 := ListSound.run keeps sound ranOk
    exact kept
  · obtain rfl := Except.ok.inj runs
    exact sound

/-- The first alarm of the list is an alarm that is active, and it is rearmed. -/
theorem ListSound.takeFirst (sound : ListSound live alarms)
    (hasFirst : alarms.kalarms.listGet () FIRST ≠ 0) :
    (alarms.kalarms.listRemove () FIRST 0).1 = alarms.kalarms.listGet () FIRST ∧
      alarms.kalarms.listGet () FIRST ∈ live ∧
      (alarms.kalarm (alarms.kalarms.listGet () FIRST)).active = true ∧
      ListSound live (alarms.takeFirst (alarms.kalarms.listGet () FIRST)) := by
  obtain ⟨entries, listed⟩ := sound
  have get := listed.linked.listGet_first ()
  cases entries with
  | nil => exact absurd get hasFirst
  | cons first rest =>
      rw [headOf_cons] at get
      rw [get]
      obtain ⟨isFirst, loose⟩ := listed.removeFirst
      obtain ⟨memLive, active⟩ := (listed.mem_iff first).mp (by simp)
      have logged : Loose { alarms with
          kalarms := (alarms.kalarms.listRemove () FIRST 0).2
          events := .fired first (alarms.kalarm first) alarms.world :: alarms.events }
          live rest first :=
        { loose with }
      exact ⟨isFirst, memLive, active, logged.rearm active⟩

theorem ListSound.fire (keeps : Keeps live call) (sound : ListSound live alarms)
    (hasFirst : alarms.kalarms.listGet () FIRST ≠ 0)
    (fires : alarms.fire host call = .ok result) : ListSound live result.2 := by
  obtain ⟨isFirst, -, -, taken⟩ := sound.takeFirst hasFirst
  unfold Alarms.fire at fires
  dsimp only at fires
  rw [isFirst] at fires
  obtain ⟨acted, runs, rfl⟩ := map_ok fires
  have kept : ListSound live acted.2 := ListSound.runAction keeps taken runs
  exact kept.world _ acted.2.events

/-- The loop of `k_schedule_alarms` keeps the invariant. -/
theorem ListSound.fireLoop (keeps : Keeps live call) (sound : ListSound live alarms)
    (loops : alarms.fireLoop host call refTime fuel count = .ok result) :
    ListSound live result.2 := by
  induction fuel generalizing alarms count with
  | zero => cases loops
  | succ fuel ih =>
      unfold Alarms.fireLoop at loops
      dsimp only at loops
      split_ifs at loops with expired
      · obtain ⟨fired, fires, loops⟩ := bind_ok loops
        exact ih (sound.fire keeps expired.1 fires) loops
      · obtain rfl := Except.ok.inj loops
        exact sound

/-- When the loop of `k_schedule_alarms` ends, no alarm that is active has expired. -/
theorem ListSound.fireLoop_done (keeps : Keeps live call) (sound : ListSound live alarms)
    (loops : alarms.fireLoop host call refTime fuel count = .ok result) (mem : id ∈ live)
    (active : (result.2.kalarm id).active = true) :
    0 < Time.timeCmp (result.2.kalarm id).alarm.expTime refTime := by
  induction fuel generalizing alarms count with
  | zero => cases loops
  | succ fuel ih =>
      unfold Alarms.fireLoop at loops
      dsimp only at loops
      split_ifs at loops with expired
      · obtain ⟨fired, fires, loops⟩ := bind_ok loops
        exact ih (sound.fire keeps expired.1 fires) loops
      · obtain rfl := Except.ok.inj loops
        obtain ⟨entries, listed⟩ := sound
        have inList := (listed.mem_iff id).mpr ⟨mem, active⟩
        have get := listed.linked.listGet_first ()
        cases entries with
        | nil => cases inList
        | cons first rest =>
            rw [headOf_cons] at get
            have memLive := ((listed.mem_iff first).mp (by simp)).1
            have nonzero := (listed.pointer first memLive).1.ne'
            rw [get] at expired
            have later : ¬ Time.timeCmp (alarms.kalarm first).alarm.expTime refTime ≤ 0 :=
              fun due => expired ⟨nonzero, due⟩
            by_contra due
            apply later
            rcases List.mem_cons.mp inList with rfl | inRest
            · exact Int.not_lt.mp due
            · have order : alarmCmp alarms.kalarm first id ≤ 0 :=
                (List.pairwise_cons.mp listed.sorted).1 id inRest
              exact Time.timeCmp_le_trans order (Int.not_lt.mp due)

theorem ListSound.kScheduleAlarms (keeps : Keeps live call) (sound : ListSound live alarms)
    (runs : alarms.kScheduleAlarms host call fuel = .ok result) : ListSound live result.2 := by
  obtain ⟨looped, loops, rfl⟩ := map_ok runs
  have kept : ListSound live looped.2 := (sound.world _ alarms.events).fireLoop keeps loops
  unfold Alarms.setTimer
  dsimp only
  split_ifs
  · exact kept.world _ looped.2.events
  · exact kept

/-- After `k_schedule_alarms` no alarm that is active has expired. -/
theorem ListSound.kScheduleAlarms_done (keeps : Keeps live call) (sound : ListSound live alarms)
    (runs : alarms.kScheduleAlarms host call fuel = .ok result) (mem : id ∈ live)
    (active : (result.2.kalarm id).active = true) :
    0 < Time.timeCmp (result.2.kalarm id).alarm.expTime
      (Time.timeAdd (host.getTime alarms.world).1 host.threshold) := by
  obtain ⟨looped, loops, rfl⟩ := map_ok runs
  have kalarm : (looped.2.setTimer host (host.getTime alarms.world).1).kalarm =
      looped.2.kalarm := by
    unfold Alarms.setTimer
    dsimp only
    split_ifs <;> rfl
  dsimp only at active ⊢
  rw [kalarm] at active ⊢
  exact (sound.world _ alarms.events).fireLoop_done keeps loops mem active

theorem ListSound.scheduleIf {reschedule : Prop} [Decidable reschedule] (keeps : Keeps live call)
    (sound : ListSound live alarms)
    (runs : alarms.scheduleIf host call reschedule = .ok alarms') : ListSound live alarms' := by
  unfold Alarms.scheduleIf at runs
  split_ifs at runs
  · obtain ⟨ran, ranOk, rfl⟩ := map_ok runs
    exact ListSound.run keeps sound ranOk
  · obtain rfl := Except.ok.inj runs
    exact sound

theorem Loose.kAlarmAdd (keeps : Keeps live call) (loose : Loose alarms live entries id)
    (runs : alarms.kAlarmAdd host call fuel id = .ok alarms') : ListSound live alarms' := by
  obtain ⟨scheduled, ran, finished⟩ := bind_ok runs
  have kept : ListSound live scheduled.2 := ListSound.kScheduleAlarms keeps loose.activate ran
  unfold Alarms.finishAdd at finished
  dsimp only at finished
  split_ifs at finished
  · exact (kept.world _ _).scheduleIf keeps finished
  · exact (kept.world _ scheduled.2.events).scheduleIf keeps finished

theorem Listed.storeAlarm (listed : Listed alarms live entries) :
    Listed ((alarms.storeAlarm id alarm).onWorld (host.setErrno 0)) live entries := by
  have stored : Listed (alarms.storeAlarm id alarm) live entries := by
    unfold Alarms.storeAlarm
    refine listed.congr rfl ?_ ?_ ?_
    · apply setKalarm_field fun kalarm => kalarm.alarm.expTime
      rfl
    · apply setKalarm_field KAlarm.active
      rfl
    · apply setKalarm_field KAlarm.magic
      rfl
  exact stored.congr rfl (fun _ => rfl) (fun _ => rfl) fun _ => rfl

theorem Listed.changeTime {expTime : Time} (listed : Listed alarms live entries)
    (memLive : id ∈ live) :
    Loose (alarms.changeTime id expTime) live (entries.erase id) id := by
  have loose := listed.loosen memLive
  unfold Alarms.changeTime
  refine loose.setKalarm ?_
  exact loose.magic

/-- `k_alarm_set` keeps the invariant, however deep it is nested. -/
theorem kAlarmSet_keeps (fuel : Nat) : Keeps live (kAlarmSet host fuel) := by
  induction fuel with
  | zero =>
      intro id alarm alarms alarms' _ result
      cases result
  | succ fuel ih =>
      rintro id alarm alarms alarms' ⟨entries, listed⟩ result
      unfold kAlarmSet at result
      split_ifs at result with noAlarm
      dsimp only at result
      have memLive := (listed.marked_iff id).mp (not_not.mp (not_or.mp noAlarm).2)
      have noted : Listed (alarms.noteSet host id alarm) live entries := listed.world _ _
      split_ifs at result
      · exact (noted.storeAlarm.changeTime memLive).kAlarmAdd ih result
      · obtain rfl := Except.ok.inj result
        exact ⟨entries, noted.storeAlarm⟩

theorem ListSound.kAlarmNew {syscall : Bool} (sound : ListSound live alarms)
    (unused : id ∉ live) (pointer : 0 < id ∧ id < addressCount)
    (result : alarms.kAlarmNew host fuel id alarm syscall = .ok alarms') :
    ListSound (insert id live) alarms' := by
  obtain ⟨entries, listed⟩ := sound
  unfold Alarms.kAlarmNew at result
  rw [if_neg pointer.1.ne'] at result
  dsimp only at result
  have created : Loose (alarms.setKalarm id fun kalarm => { kalarm with
      alarm := alarm
      magic := ALARM_MAGIC
      thread := if syscall then host.activeThread alarms.world else 0 })
      (insert id live) entries id :=
    listed.create unused pointer rfl
  exact Loose.kAlarmAdd (kAlarmSet_keeps fuel) (created.world _) result

theorem Listed.discard (listed : Listed alarms live entries) (memLive : id ∈ live) :
    Listed (alarms.discard host id).2 (live \ {id}) (entries.erase id) := by
  have removed : Listed (Alarms.setKalarm id (fun kalarm => { kalarm with magic := 0 })
      (if (alarms.kalarm id).active then alarms.listRemove id else alarms)) (live \ {id})
      (entries.erase id) :=
    (listed.loosen memLive).remove (by simp [ALARM_MAGIC])
  exact removed.congr rfl (fun _ => rfl) (fun _ => rfl) fun _ => rfl

theorem ListSound.kAlarmRemove (sound : ListSound live alarms)
    (result : alarms.kAlarmRemove host fuel id = .ok alarms') :
    id ∈ live ∧ ListSound (live \ {id}) alarms' := by
  obtain ⟨entries, listed⟩ := sound
  unfold Alarms.kAlarmRemove at result
  split_ifs at result with noAlarm
  obtain ⟨scheduled, ran, result⟩ := bind_ok result
  have memLive := (listed.marked_iff id).mp (not_not.mp (not_or.mp noAlarm).2)
  have discarded : ListSound (live \ {id}) (alarms.discard host id).2 :=
    ⟨_, listed.discard memLive⟩
  have kept := discarded.kScheduleAlarms (kAlarmSet_keeps fuel) ran
  exact ⟨memLive, kept.scheduleIf (kAlarmSet_keeps fuel) result⟩

theorem ListSound.kTimerInterrupt (sound : ListSound live alarms)
    (result : alarms.kTimerInterrupt host fuel = .ok alarms') : ListSound live alarms' := by
  obtain ⟨scheduled, ran, result⟩ := bind_ok result
  have kept := sound.kScheduleAlarms (kAlarmSet_keeps fuel) ran
  exact kept.scheduleIf (kAlarmSet_keeps fuel) result

end Operations

section Runs

/-- The alarms, and the set of those that exist. -/
structure AlarmState (W : Type) where
  alarms : Alarms W
  live : Set Ptr

/-- One alarm operation, or some other work of the kernel that may set alarms. -/
inductive AlarmStep (host : Host W) : AlarmState W → AlarmState W → Prop where
  | new {fuel : Nat} {id : Ptr} {alarm : Alarm} {syscall : Bool} {state : AlarmState W}
      {alarms : Alarms W} (unused : id ∉ state.live) (pointer : 0 < id ∧ id < addressCount)
      (result : state.alarms.kAlarmNew host fuel id alarm syscall = .ok alarms) :
      AlarmStep host state ⟨alarms, insert id state.live⟩
  | set {fuel : Nat} {id : Ptr} {alarm : Alarm} {state : AlarmState W} {alarms : Alarms W}
      (result : kAlarmSet host fuel id alarm state.alarms = .ok alarms) :
      AlarmStep host state ⟨alarms, state.live⟩
  | remove {fuel : Nat} {id : Ptr} {state : AlarmState W} {alarms : Alarms W}
      (result : state.alarms.kAlarmRemove host fuel id = .ok alarms) :
      AlarmStep host state ⟨alarms, state.live \ {id}⟩
  | interrupt {fuel : Nat} {state : AlarmState W} {alarms : Alarms W}
      (result : state.alarms.kTimerInterrupt host fuel = .ok alarms) :
      AlarmStep host state ⟨alarms, state.live⟩
  | work {fuel : Nat} {prog : Prog W Unit} {state : AlarmState W} {ran : Unit × Alarms W}
      (result : prog.run (kAlarmSet host fuel) state.alarms = .ok ran) :
      AlarmStep host state ⟨ran.2, state.live⟩

variable {host : Host W} {state state' : AlarmState W}

theorem ListSound.step (sound : ListSound state.live state.alarms)
    (step : AlarmStep host state state') : ListSound state'.live state'.alarms := by
  cases step with
  | new unused pointer result => exact sound.kAlarmNew unused pointer result
  | set result => exact kAlarmSet_keeps _ _ _ _ _ sound result
  | remove result => exact (sound.kAlarmRemove result).2
  | interrupt result => exact sound.kTimerInterrupt result
  | work result => exact ListSound.run (kAlarmSet_keeps _) sound result

theorem ListSound.steps (sound : ListSound state.live state.alarms)
    (run : Relation.ReflTransGen (AlarmStep host) state state') :
    ListSound state'.live state'.alarms := by
  induction run with
  | refl => exact sound
  | tail _ step ih => exact ih.step step

theorem ListSound.kTimeInit (unmarked : ∀ id, ¬ alarms.Marked id) :
    ListSound ∅ alarms.kTimeInit := by
  refine ⟨[], ?_⟩
  exact
    { linked := Lists.Linked.init_single
      sorted := .nil
      mem_iff := by simp
      marked_iff := fun id => iff_of_false (unmarked id) (by simp)
      pointer := by simp }

/-- A kernel whose memory is the second that the clock shows next, and that does nothing
else. -/
def clockHost : Host Nat where
  getTime := fun second => (⟨second, 0⟩, second + 1)
  timerSet := fun _ second => second
  createThread := fun _ second => .ok second
  initQueue := fun _ second => second
  releaseAll := fun _ second => (0, second)
  enqueue := fun _ _ second => second
  action := fun _ _ => .done ()
  schedule := .done ()
  setErrno := fun _ second => second
  activeThread := fun _ => 0
  kfree := fun _ second => second
  threshold := ⟨0, 500⟩

/-- Memory without alarms. -/
def clockStart : Alarms Nat where
  kalarms := ⟨fun _ => 0, fun _ => 0, fun _ => 0, fun _ => 0, fun _ => 0⟩
  kalarm := fun _ => ⟨⟨⟨0, 0⟩, 0, 0, 0, ⟨0, 0⟩⟩, false, 0, 0⟩
  world := 0
  events := []

end Runs

end Alarms

end Oseer

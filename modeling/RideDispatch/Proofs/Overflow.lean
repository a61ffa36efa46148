import RideDispatch.Proofs.Cadence

/-!
# Overflow

A clock that is asked for a moment in seconds, and a simulation that looks for its next cycle, compute on bare
words. They come to the time that they should just if the result fits in a word (`scheduled_exactly_iff`). Where it
does not, the program stops, and a simulation goes astray (`Simulation.astray_ensureCycle`). Without checks a
remainder is left, which reaches `Time.never` only where the present moment does that already; the remainder of a
cycle lies in the past (`nextCycle?_of_misfit`).
-/

namespace RideDispatch

/-! ## Seconds -/

/-- The milliseconds of a number of seconds fit in a word. -/
def SecsFit (secs : UInt64) : Prop := secs.toNat * 1000 < UInt64.size

namespace Time

variable {mode : Arithmetic} {secs : UInt64}

/-- What a word keeps of the milliseconds of a number of seconds. -/
def remainder (secs : UInt64) : Time := ⟨(secs.toNat * 1000).toUInt64⟩

lemma bareSecs?_of_fits (fits : SecsFit secs) : bareSecs? secs mode = some (ofSecs secs) := by
  unfold SecsFit at fits
  unfold bareSecs? ofSecs ofNat
  rw [Arithmetic.word?_of_lt fits, if_pos fits]
  rfl

lemma bareSecs?_of_misfit (misfit : ¬ SecsFit secs) : bareSecs? secs = none := by
  unfold bareSecs?
  rw [Arithmetic.checked_word?_of_le (Nat.not_lt.mp misfit)]
  rfl

lemma ofSecs_of_misfit (misfit : ¬ SecsFit secs) : ofSecs secs = never := if_neg misfit

/-- A remainder is even, and `never` is not. -/
lemma remainder_ne_never : remainder secs ≠ never := by
  intro same
  have odd : (remainder secs).toNat = never.toNat := congrArg toNat same
  have even : (remainder secs).toNat = secs.toNat * 1000 % UInt64.size := UInt64.toNat_ofNat'
  rw [even, toNat_never, UInt64.size] at odd
  omega

lemma add_never (t : Time) : t + never = never := by
  apply ext
  rw [toNat_add]
  omega

/-- The later of two times is `never` only if one of them is. -/
lemma max_remainder_iff (t : Time) : max (remainder secs) t = never ↔ t = never := by
  constructor
  · intro last
    have later := congrArg toNat last
    rw [toNat_max] at later
    rcases Nat.le_total t.toNat (remainder secs).toNat with early | late
    · rw [Nat.max_eq_left early] at later
      exact absurd (ext later) remainder_ne_never
    · rw [Nat.max_eq_right late] at later
      exact ext later
  · rintro rfl
    apply ext
    rw [toNat_max]
    exact Nat.max_eq_right (remainder secs).toNat_le

end Time

namespace Clock

variable {mode : Arithmetic} {c : Clock} {time goal : Time} {kind : EventKind} {subject : Option EventSubject}
variable {e : ScheduledEvent} {secs : UInt64}

/-- A clock has one more event to come, and shows the same moment. -/
structure Gains (c c' : Clock) (e : ScheduledEvent) : Prop where
  now : c'.now = c.now
  pending : c'.pending.Perm (e :: c.pending)

lemma gains_schedule_iff : c.Gains (c.schedule time kind subject) e ↔
    e = ⟨max time c.now, kind, subject, c.issued⟩ := by
  have gained : (c.schedule time kind subject).pending.Perm
      (⟨max time c.now, kind, subject, c.issued⟩ :: c.pending) := insert_perm _ _
  constructor
  · intro h
    have same := gained.symm.trans h.pending
    rw [← List.singleton_append, ← List.singleton_append (l := c.pending), List.perm_append_right_iff] at same
    exact (List.singleton_perm_singleton.mp same).symm
  · rintro rfl
    exact ⟨rfl, gained⟩

/-- An event whose time depends on a number of seconds comes at the time it should if the seconds fit, or if
their remainder happens to lead there. -/
lemma exists_gains_iff (place : Time → Time) (aim : max (place (Time.ofSecs secs)) c.now = goal) :
    (∃ c', ((Time.bareSecs? secs mode).map fun t => c.schedule (place t) kind subject) = some c' ∧
      c.Gains c' ⟨goal, kind, subject, c.issued⟩) ↔
    SecsFit secs ∨ mode = .wrapping ∧ max (place (Time.remainder secs)) c.now = goal := by
  by_cases fits : SecsFit secs
  · rw [Time.bareSecs?_of_fits fits]
    refine iff_of_true ⟨_, rfl, gains_schedule_iff.mpr ?_⟩ (.inl fits)
    rw [aim]
  · cases mode with
    | checked =>
      rw [Time.bareSecs?_of_misfit fits]
      simp [fits]
    | wrapping =>
      have kept : Time.bareSecs? secs .wrapping = some (Time.remainder secs) := rfl
      rw [kept]
      simp [fits, gains_schedule_iff, eq_comm]

end Clock

/-! ## Cycles -/

section NextCycle

variable {mode : Arithmetic} {now step t : Time}

/-- The time of the next cycle: the least multiple of the step after now, or `never` where that is too far off. A
step of zero counts as one millisecond. -/
def IsNextCycle (now step t : Time) : Prop :=
  ∃ m, IsLeast {m | max step.toNat 1 ∣ m ∧ now.toNat < m} m ∧ t.toNat = min m Time.never.toNat

/-- The step that counts is one millisecond at least. -/
lemma nextFits_iff : NextFits now (max step ⟨1⟩) ↔
    (now.toNat / max step.toNat 1 + 1) * max step.toNat 1 < UInt64.size := by
  have width : (max step ⟨1⟩).toNat = max step.toNat 1 := Time.toNat_max step ⟨1⟩
  unfold NextFits
  rw [width]

lemma isNextCycle_iff : IsNextCycle now step t ↔
    t.toNat = min ((now.toNat / max step.toNat 1 + 1) * max step.toNat 1) Time.never.toNat := by
  have pos : 0 < max step.toNat 1 := Nat.le_max_right _ _
  have least := isLeast_next now.toNat pos
  constructor
  · rintro ⟨m, own, time⟩
    rw [time, own.unique least]
  · intro time
    exact ⟨_, least, time⟩

lemma nextCycle?_of_fits (fits : NextFits now (max step ⟨1⟩)) :
    ∃ t, nextCycle? now step mode = some t ∧ IsNextCycle now step t := by
  rw [nextFits_iff] at fits
  rw [nextCycle?_eq, Arithmetic.word?_of_lt fits]
  refine ⟨_, rfl, isNextCycle_iff.mpr ?_⟩
  have bound : (now.toNat / max step.toNat 1 + 1) * max step.toNat 1 ≤ Time.never.toNat := Nat.le_of_lt_succ fits
  rw [Nat.min_eq_left bound]
  exact UInt64.toNat_ofNat_of_lt fits

/-- What is left of a cycle that does not fit lies in the past: the cycle is no more than a step away, and a
step is less than what the word loses. -/
lemma nextCycle?_of_misfit (misfit : ¬ NextFits now (max step ⟨1⟩)) :
    nextCycle? now step = none ∧ ∃ t, nextCycle? now step .wrapping = some t ∧ t < now := by
  rw [nextFits_iff, Nat.not_lt] at misfit
  rw [nextCycle?_eq, nextCycle?_eq, Arithmetic.checked_word?_of_le misfit]
  refine ⟨rfl, _, rfl, Time.lt_iff.mpr ?_⟩
  have near : (now.toNat / max step.toNat 1 + 1) * max step.toNat 1 ≤ now.toNat + max step.toNat 1 := by
    rw [Nat.add_mul, Nat.one_mul]
    exact Nat.add_le_add_right (Nat.div_mul_le_self _ _) _
  have small : max step.toNat 1 < UInt64.size := Nat.max_lt.mpr ⟨step.ms.toNat_lt, by decide⟩
  have early : now.toNat < UInt64.size := now.ms.toNat_lt
  have left : ((now.toNat / max step.toNat 1 + 1) * max step.toNat 1).toUInt64.toNat =
      (now.toNat / max step.toNat 1 + 1) * max step.toNat 1 % UInt64.size := UInt64.toNat_ofNat'
  show ((now.toNat / max step.toNat 1 + 1) * max step.toNat 1).toUInt64.toNat < now.toNat
  rw [left, Nat.mod_eq_sub_mod misfit, Nat.mod_eq_of_lt (by omega)]
  omega

lemma nextCycle?_iff : (∃ t, nextCycle? now step mode = some t ∧ IsNextCycle now step t) ↔
    NextFits now (max step ⟨1⟩) := by
  constructor
  · rintro ⟨t, next, right⟩
    by_contra misfit
    obtain ⟨stops, t', goes, past⟩ := nextCycle?_of_misfit misfit
    cases mode with
    | checked =>
      rw [stops] at next
      cases next
    | wrapping =>
      rw [goes] at next
      cases next
      obtain ⟨m, least, time⟩ := right
      have later := least.1.2
      have bound := now.toNat_le
      rw [Time.lt_iff] at past
      omega
  · exact nextCycle?_of_fits

end NextCycle

/-- Looking for the next cycle leads a simulation astray just if there is no time for that cycle. -/
lemma Simulation.astray_ensureCycle {sim : Simulation} : sim.ensureCycle.astray = true ↔
    sim.astray = true ∨ sim.clock.hasPending .dispatchCycle = false ∧
      ¬ NextFits sim.clock.now (max sim.dispatcher.reoptimizationStep ⟨1⟩) := by
  unfold ensureCycle
  cases pending : sim.clock.hasPending .dispatchCycle with
  | true => simp
  | false =>
    have stops : (nextCycle? sim.clock.now sim.dispatcher.reoptimizationStep).isNone = true ↔
        ¬ NextFits sim.clock.now (max sim.dispatcher.reoptimizationStep ⟨1⟩) := by
      constructor
      · intro none_ fits
        obtain ⟨t, next, _⟩ : ∃ t, nextCycle? sim.clock.now sim.dispatcher.reoptimizationStep = some t ∧ _ :=
          nextCycle?_of_fits fits
        rw [next] at none_
        cases none_
      · intro misfit
        rw [(nextCycle?_of_misfit misfit).1]
        rfl
    simp [stops]

/-! ## The times that are scheduled -/

/-- Whatever a clock shows, an event that is asked for at a number of seconds, or after a number of seconds, comes at
that time, or at `never` where that is too far off, just if the milliseconds fit in a word or the present moment
leads there anyway; and the next cycle is looked for rightly just if its time fits. Where something does not fit,
checked arithmetic stops. Wrapping arithmetic goes on with the remainder, which for a cycle lies in the past. -/
theorem scheduled_exactly_iff (mode : Arithmetic) (c : Clock) (secs : UInt64) (kind : EventKind)
    (subject : Option EventSubject) (now step : Time) :
    (c.now ≤ Time.ofSecs secs →
      ((∃ c', c.scheduleSecs? secs kind subject mode = some c' ∧
          c.Gains c' ⟨Time.ofSecs secs, kind, subject, c.issued⟩) ↔
        SecsFit secs ∨ mode = .wrapping ∧ c.now = .never)) ∧
    ((∃ c', c.scheduleInSecs? secs kind subject mode = some c' ∧
        c.Gains c' ⟨c.now + Time.ofSecs secs, kind, subject, c.issued⟩) ↔
      SecsFit secs ∨ mode = .wrapping ∧ c.now + Time.remainder secs = .never) ∧
    ((∃ t, nextCycle? now step mode = some t ∧ IsNextCycle now step t) ↔ NextFits now (max step ⟨1⟩)) ∧
    (¬ SecsFit secs →
      (c.scheduleSecs? secs kind subject = none ∧ c.scheduleInSecs? secs kind subject = none) ∧
      c.scheduleSecs? secs kind subject .wrapping = some (c.schedule (.remainder secs) kind subject) ∧
      c.scheduleInSecs? secs kind subject .wrapping = some (c.scheduleIn (.remainder secs) kind subject)) ∧
    (¬ NextFits now (max step ⟨1⟩) →
      nextCycle? now step = none ∧ ∃ t, nextCycle? now step .wrapping = some t ∧ t < now) := by
  refine ⟨?_, ?_, nextCycle?_iff, ?_, nextCycle?_of_misfit⟩
  · intro ahead
    have aim : max (Time.ofSecs secs) c.now = Time.ofSecs secs := by
      apply Time.ext
      rw [Time.toNat_max]
      exact Nat.max_eq_left (Time.le_iff.mp ahead)
    refine (Clock.exists_gains_iff id aim).trans (or_congr_right' fun misfit => and_congr_right fun _ => ?_)
    rw [Time.ofSecs_of_misfit misfit]
    exact Time.max_remainder_iff c.now
  · refine (Clock.exists_gains_iff (c.now + ·) max_add_self).trans
      (or_congr_right' fun misfit => and_congr_right fun _ => ?_)
    rw [max_add_self, Time.ofSecs_of_misfit misfit, Time.add_never]
  · intro misfit
    unfold Clock.scheduleSecs? Clock.scheduleInSecs?
    rw [Time.bareSecs?_of_misfit misfit]
    exact ⟨⟨rfl, rfl⟩, rfl, rfl⟩

/-- A clock at its fifth millisecond is asked for the first second that does not fit, and a simulation in its last
second for the next cycle. -/
theorem scheduled_exactly_lastSecond :
    let c : Clock := { now := ⟨5⟩ }
    let secs : UInt64 := 18446744073709552
    (c.now ≤ Time.ofSecs secs ∧ ¬ SecsFit secs ∧ ¬ NextFits ⟨18446744073709551000⟩ (max ⟨1000⟩ ⟨1⟩)) ∧
      ¬ (∃ c', c.scheduleSecs? secs .dispatchCycle none = some c' ∧
        c.Gains c' ⟨Time.ofSecs secs, .dispatchCycle, none, c.issued⟩) ∧
      c.scheduleSecs? secs .dispatchCycle none = none ∧
      nextCycle? ⟨18446744073709551000⟩ ⟨1000⟩ = none ∧
      ∃ t, nextCycle? ⟨18446744073709551000⟩ ⟨1000⟩ .wrapping = some t ∧ t < ⟨18446744073709551000⟩ := by
  intro c secs
  have ahead : c.now ≤ Time.ofSecs secs := by decide
  have misfit : ¬ SecsFit secs := by
    unfold SecsFit
    decide
  have none_ : ¬ NextFits ⟨18446744073709551000⟩ (max ⟨1000⟩ ⟨1⟩) := by
    unfold NextFits
    decide
  obtain ⟨exactly, _, _, stops, past⟩ :=
    scheduled_exactly_iff .checked c secs .dispatchCycle none ⟨18446744073709551000⟩ ⟨1000⟩
  refine ⟨⟨ahead, misfit, none_⟩, ?_, (stops misfit).1.1, past none_⟩
  rw [exactly ahead]
  rintro (fits | ⟨unchecked, _⟩)
  · exact misfit fits
  · cases unchecked

/-- In the last second that the clock can show, the program stops where it looks for the next of the cycles that come
every second; `never` is the time that it should find. Without checks it finds what remains of that cycle at the
beginning. -/
theorem no_next_cycle_in_last_second :
    nextCycle? ⟨18446744073709551000⟩ ⟨1000⟩ = none ∧ IsNextCycle ⟨18446744073709551000⟩ ⟨1000⟩ .never ∧
      nextCycle? ⟨18446744073709551000⟩ ⟨1000⟩ .wrapping = some ⟨384⟩ ∧
      ¬ IsNextCycle ⟨18446744073709551000⟩ ⟨1000⟩ ⟨384⟩ := by
  rw [isNextCycle_iff, isNextCycle_iff]
  decide

end RideDispatch

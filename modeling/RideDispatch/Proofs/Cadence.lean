import RideDispatch.Proofs.Accounts
import RideDispatch.Proofs.Quiescence
import Mathlib.Order.Bounds.Basic

/-!
# The cadence of cycles

Cycles lie on the multiples of the dispatcher's step, and there is never more than one of them to come
(`Clock.Paced`). A cycle that is to come when a request comes in was asked for at an earlier moment, but it
lies behind the submission, for at one moment cycles come before submissions; so it lies on the very multiple
that would be asked for now (`nextCycleTime_of_between`). From then on the request waits for that cycle, as no
other cycle can come in between (`Simulation.Awaits`): it is given up at its expiry, or the cycle is the first
that plans it. The main statement is `Simulation.cadence`.
-/

namespace RideDispatch

/-! ## The multiples of a step -/

/-- The first multiple of a step after a moment is a time. -/
def NextFits (now step : Time) : Prop := (now.toNat / step.toNat + 1) * step.toNat < UInt64.size

section Multiples

variable {now step s t : Time}

lemma isLeast_next {step : Nat} (now : Nat) (pos : 0 < step) :
    IsLeast {m | step ∣ m ∧ now < m} ((now / step + 1) * step) := by
  refine ⟨⟨Dvd.intro_left _ rfl, Nat.lt_mul_of_div_lt (Nat.lt_succ_self _) pos⟩, ?_⟩
  rintro _ ⟨⟨k, rfl⟩, later⟩
  have more : now / step < k := Nat.div_lt_of_lt_mul later
  rw [Nat.mul_comm step k]
  exact Nat.mul_le_mul_right step more

lemma toNat_nextCycleTime_of_pos (pos : 0 < step.toNat) : (nextCycleTime now step).toNat =
    min ((now.toNat / step.toNat + 1) * step.toNat) Time.never.toNat := by
  rw [toNat_nextCycleTime, Nat.max_eq_left pos]

/-- The next cycle lies on the least multiple of the step after now, if that is a time. -/
lemma isLeast_nextCycleTime (pos : 0 < step.toNat) (fits : NextFits now step) :
    IsLeast {m | step.toNat ∣ m ∧ now.toNat < m} (nextCycleTime now step).toNat := by
  have bound : (now.toNat / step.toNat + 1) * step.toNat ≤ Time.never.toNat := Nat.le_of_lt_succ fits
  rw [toNat_nextCycleTime_of_pos pos, Nat.min_eq_left bound]
  exact isLeast_next now.toNat pos

lemma nextCycleTime_eq_never (pos : 0 < step.toNat) (misfit : ¬ NextFits now step) :
    nextCycleTime now step = .never := by
  apply Time.ext
  rw [toNat_nextCycleTime_of_pos pos]
  exact Nat.min_eq_right (Nat.le_of_lt (Nat.not_lt.mp misfit))

/-- Between a moment and the cycle after it no other cycle would be the next one. -/
lemma nextCycleTime_of_between (pos : 0 < step.toNat) (later : s ≤ t) (between : t < nextCycleTime s step) :
    nextCycleTime s step = nextCycleTime t step := by
  rw [Time.lt_iff, toNat_nextCycleTime_of_pos pos] at between
  have before : t.toNat < (s.toNat / step.toNat + 1) * step.toNat :=
    Nat.lt_of_lt_of_le between (Nat.min_le_left _ _)
  have same : s.toNat / step.toNat = t.toNat / step.toNat := by
    apply Nat.le_antisymm
    · exact Nat.div_le_div_right (Time.le_iff.mp later)
    · exact Nat.le_of_lt_succ (Nat.div_lt_of_lt_mul (Nat.mul_comm _ _ ▸ before))
  apply Time.ext
  rw [toNat_nextCycleTime_of_pos pos, toNat_nextCycleTime_of_pos pos, same]

lemma NextFits.mono (fits : NextFits t step) (later : s ≤ t) : NextFits s step := by
  refine Nat.lt_of_le_of_lt (Nat.mul_le_mul_right _ (Nat.succ_le_succ ?_)) fits
  exact Nat.div_le_div_right (Time.le_iff.mp later)

end Multiples

/-- Cycles stay on the multiples of the step. -/
example : nextCycleTime 0 ⟨1000⟩ = ⟨1000⟩ ∧ nextCycleTime ⟨999⟩ ⟨1000⟩ = ⟨1000⟩ ∧
    nextCycleTime ⟨15000⟩ ⟨15000⟩ = ⟨30000⟩ ∧ nextCycleTime ⟨16500⟩ ⟨15000⟩ = ⟨30000⟩ := by decide

/-! ## The pace of a clock -/

namespace Clock

variable {c : Clock} {step : Time} {e : ScheduledEvent} {rest : List ScheduledEvent}
variable {asked : List Appointment}

/-- There is at most one cycle to come. It is the first one, or it was the next one at a moment that is not
later than now. -/
structure Paced (c : Clock) (step : Time) : Prop where
  single : (c.due .dispatchCycle).length ≤ 1
  grid : ∀ e ∈ c.due .dispatchCycle, e.time = 0 ∨ ∃ s, s ≤ c.now ∧ e.time = nextCycleTime s step

lemma Paced.pop (h : c.Paced step) (pending : c.pending = e :: rest) (later : c.now ≤ e.time) :
    { c with now := e.time, pending := rest }.Paced step := by
  have fewer : (rest.filter fun e => e.kind = .dispatchCycle).Sublist (c.due .dispatchCycle) := by
    unfold due
    rw [pending]
    exact (List.sublist_cons_self e rest).filter _
  refine ⟨Nat.le_trans fewer.length_le h.single, ?_⟩
  intro e' member
  refine (h.grid e' (fewer.subset member)).imp_right ?_
  rintro ⟨s, early, time⟩
  exact ⟨s, Time.le_trans early later, time⟩

/-- Other events leave the pace as it is. -/
lemma Paced.others (h : c.Paced step) (different : ∀ a ∈ asked, a.kind ≠ .dispatchCycle) :
    (c.scheduleAll asked).Paced step := by
  have same := due_scheduleAll (c := c) different
  refine ⟨same.length_eq ▸ h.single, ?_⟩
  intro e member
  rw [now_scheduleAll]
  exact h.grid e (same.mem_iff.mp member)

/-- The only cycle to come is the one that has been scheduled. -/
lemma due_schedule_cycle (none_ : c.due .dispatchCycle = []) {time : Time} (ahead : c.now ≤ time) :
    (c.schedule time .dispatchCycle none).due .dispatchCycle = [⟨time, .dispatchCycle, none, c.issued⟩] := by
  have one : ((c.schedule time .dispatchCycle none).due .dispatchCycle).Perm
      (⟨max time c.now, .dispatchCycle, none, c.issued⟩ :: c.due .dispatchCycle) := due_schedule_self
  have same : max time c.now = time := by
    apply Time.ext
    rw [Time.toNat_max]
    exact Nat.max_eq_left (Time.le_iff.mp ahead)
  rw [none_, same] at one
  exact List.perm_singleton.mp one

lemma Paced.next (step : Time) (none_ : c.due .dispatchCycle = []) :
    (c.schedule (nextCycleTime c.now step) .dispatchCycle none).Paced step := by
  have one := due_schedule_cycle none_ (le_nextCycleTime c.now step)
  constructor
  case single => exact Nat.le_of_eq (congrArg List.length one)
  case grid =>
    intro e member
    rw [one] at member
    rw [List.mem_singleton.mp member]
    exact .inr ⟨c.now, Time.le_refl _, rfl⟩

end Clock

namespace Simulation

variable {sim sim' : Simulation} {e c : ScheduledEvent} {id : RequestId}

/-- A cycle is asked for only if none is to come. -/
lemma cycleAppointment_eq : sim.cycleAppointment = if sim.clock.due .dispatchCycle = [] then
    [⟨nextCycleTime sim.clock.now sim.dispatcher.reoptimizationStep, .dispatchCycle, none⟩] else [] := by
  unfold cycleAppointment
  rw [Clock.hasPending_eq]
  cases sim.clock.due .dispatchCycle <;> rfl

/-- What an event asks for besides a cycle. -/
lemma appointments_cases : ∃ others, (∀ a ∈ others, a.kind ≠ .dispatchCycle) ∧
    (sim.appointments e = others ∨ sim.appointments e = others ++ sim.cycleAppointment) := by
  unfold appointments
  split
  · exact ⟨[], List.forall_mem_nil _, .inl rfl⟩
  · exact ⟨[], List.forall_mem_nil _, .inl rfl⟩
  · refine ⟨wakeupAppointments (sim.dispatcher.runCycle ⟨sim.clock.now, sim.router⟩ sim.fleet).fleet,
      wakeupAppointments_other, ?_⟩
    unfold cycleAppointments
    split
    · exact .inr rfl
    · exact .inl (List.append_nil _)
  · split
    · exact ⟨[], List.forall_mem_nil _, .inl rfl⟩
    · rename_i id _
      unfold submissionAppointments
      split
      · exact ⟨_, expiryAppointment_other, .inr rfl⟩
      · exact ⟨[], List.forall_mem_nil _, .inl rfl⟩

lemma paced_handle (h : sim.clock.Paced sim.dispatcher.reoptimizationStep) :
    (sim.handle e).clock.Paced sim.dispatcher.reoptimizationStep := by
  rw [clock_handle]
  obtain ⟨others, different, same | same⟩ := sim.appointments_cases (e := e)
  · rw [same]
    exact h.others different
  · rw [same, Clock.scheduleAll_append, cycleAppointment_eq]
    split
    · rename_i none_
      have still : (sim.clock.scheduleAll others).due .dispatchCycle = [] :=
        (none_ ▸ Clock.due_scheduleAll different).eq_nil
      have next := Clock.Paced.next sim.dispatcher.reoptimizationStep still
      rw [Clock.now_scheduleAll] at next
      exact next
    · exact h.others different

/-- Each step keeps the settings and the pace. -/
lemma paced_step? (h : sim.clock.Paced sim.dispatcher.reoptimizationStep) (ordered : sim.clock.Ordered)
    (step : sim.step? = some (e, sim')) :
    sim'.dispatcher.settings = sim.dispatcher.settings ∧
      sim'.clock.Paced sim.dispatcher.reoptimizationStep := by
  obtain ⟨rest, pending, _, rfl⟩ := step?_eq_some step
  have taken : (sim.taking e rest).clock.Paced (sim.taking e rest).dispatcher.reoptimizationStep :=
    h.pop pending (ordered.first pending).1
  exact ⟨parameters_handle.2, paced_handle taken⟩

lemma Reaches.paced (reached : sim.Reaches sim') (ordered : sim.clock.Ordered)
    (h : sim.clock.Paced sim.dispatcher.reoptimizationStep) :
    sim'.dispatcher.settings = sim.dispatcher.settings ∧
      sim'.clock.Paced sim.dispatcher.reoptimizationStep := by
  induction reached with
  | refl => exact ⟨rfl, h⟩
  | tail before step ih =>
    obtain ⟨e, step⟩ := step
    obtain ⟨settings, paced⟩ := ih
    have same : sim.dispatcher.reoptimizationStep = Settings.reoptimizationStep _ :=
      congrArg Settings.reoptimizationStep settings.symm
    rw [same] at paced ⊢
    obtain ⟨settings', paced⟩ := paced_step? paced (Reaches.ordered before ordered) step
    exact ⟨settings'.trans settings, paced⟩

/-! ## A request that comes in -/

/-- Once a request has come in, the only cycle to come is the next one. -/
lemma cycle_of_submission (ordered : sim.clock.Ordered)
    (paced : sim.clock.Paced sim.dispatcher.reoptimizationStep)
    (pos : 0 < sim.dispatcher.reoptimizationStep.toNat) (step : sim.step? = some (e, sim'))
    (kind : e.kind = .requestSubmitted) (own : e.request? = some id)
    (waits : sim.upcoming.contains id = true) :
    ∃ c, sim'.clock.due .dispatchCycle = [c] ∧
      c.time = nextCycleTime e.time sim.dispatcher.reoptimizationStep := by
  obtain ⟨rest, pending, clock⟩ := clock_step? step
  obtain ⟨later, behind⟩ := ordered.first pending
  have popped : (sim.taking e rest).clock.Paced sim.dispatcher.reoptimizationStep := paced.pop pending later
  have asked : (sim.taking e rest).appointments e =
      (sim.taking e rest).expiryAppointment id ++ (sim.taking e rest).cycleAppointment := by
    unfold appointments submissionAppointments
    rw [kind, own]
    exact if_pos waits
  rw [asked, Clock.scheduleAll_append] at clock
  have others : (((sim.taking e rest).clock.scheduleAll ((sim.taking e rest).expiryAppointment id)).due
      .dispatchCycle).Perm ((sim.taking e rest).clock.due .dispatchCycle) :=
    Clock.due_scheduleAll expiryAppointment_other
  rw [cycleAppointment_eq] at clock
  split at clock
  · rename_i none_
    have still := (none_ ▸ others).eq_nil
    have ahead : ((sim.taking e rest).clock.scheduleAll ((sim.taking e rest).expiryAppointment id)).now ≤
        nextCycleTime e.time sim.dispatcher.reoptimizationStep := by
      rw [Clock.now_scheduleAll]
      exact le_nextCycleTime _ _
    have one := Clock.due_schedule_cycle still ahead
    exact ⟨_, (congrArg (fun clock => clock.due .dispatchCycle) clock).trans one, rfl⟩
  · rename_i some_
    obtain ⟨c, only⟩ := List.length_eq_one_iff.mp
      (Nat.le_antisymm popped.single (List.length_pos_iff.mpr some_))
    have same : sim'.clock.due .dispatchCycle = [c] := by
      rw [clock]
      exact List.perm_singleton.mp (only ▸ others)
    obtain ⟨member, cycle⟩ := Clock.mem_due.mp (only ▸ List.mem_singleton_self c)
    -- at one moment a cycle would have been taken before the submission
    have after : e.time < c.time := by
      rw [← Time.not_le]
      intro early
      refine behind c member (ScheduledEvent.precedes_of_rank early ?_)
      rw [cycle, kind]
      decide
    refine ⟨c, same, ?_⟩
    rcases popped.grid c (only ▸ List.mem_singleton_self c) with zero | ⟨s, early, time⟩
    · rw [zero, Time.lt_iff] at after
      exact absurd after (Nat.not_lt_zero _)
    · rw [time] at after ⊢
      exact nextCycleTime_of_between pos early after

end Simulation

/-! ## A request that waits for its first cycle -/

/-- A request is queued as it has come in, and no driver has been asked for it. -/
structure DispatchState.Fresh (s : DispatchState) (r : Request) : Prop where
  queued : s.queue.get? r.id = some r
  free : ∀ c, s.registry.Holds c → c.request ≠ r.id

namespace Session

variable {φ : Type} [Fleet φ] {s s' : Session φ} {now : Time} {r : Request}

lemma Settles.fresh (settles : Settles now s s') (sound : s.state.Sound) (h : s.state.Fresh r) :
    s'.state.Fresh r := by
  obtain ⟨c, held, _, rfl⟩ := settles
  refine ⟨?_, fun c' held' => h.free c' ((holds_consume sound).mp held').1⟩
  cases outcome : s.outcome now c with
  | ok fleet =>
    rw [consume_of_ok held outcome]
    show (s.state.queue.erase c.request).get? r.id = some r
    rw [RequestQueue.get?_erase, if_neg (h.free c held)]
    exact h.queued
  | error refusal =>
    rw [consume_of_error held outcome]
    exact h.queued

lemma fresh_of_settles (settles : Relation.ReflTransGen (Settles now) s s') (sound : s.state.Sound)
    (h : s.state.Fresh r) : s'.state.Sound ∧ s'.state.Fresh r := by
  induction settles with
  | refl => exact ⟨sound, h⟩
  | tail _ settles ih =>
    have fresh := settles.fresh ih.1 ih.2
    obtain ⟨c, _, _, rfl⟩ := settles
    exact ⟨consume_sound ih.1, fresh⟩

end Session

namespace Dispatcher

variable {φ : Type} [Fleet φ] {d : Dispatcher} {now : Time} {fleet : φ} {r : Request}

/-- A cycle plans a request that it could ask a driver for, and it has planned it once more now. -/
structure PlansOnce (d : Dispatcher) (now : Time) (fleet : φ) (r : Request) : Prop where
  planned : r.id ∈ d.plans now fleet
  counted : (d.planned now fleet).state.queue.get? r.id = some (r.tried 1)
  plannable : (d.planned now fleet).state.isPlannable r.id now = true

/-- Earlier pairings are settled without a request that has none. -/
lemma settle_fresh (sound : d.state.Sound) (h : d.state.Fresh r) :
    (d.settle now fleet).state.Fresh r := by
  have synced : (d.synced now fleet).state.Fresh r := by
    refine ⟨h.queued, fun c held => ?_⟩
    obtain ⟨c, before, rfl⟩ := Registry.holds_tick.mp held
    rw [Confirmation.request_tick]
    exact h.free c before
  have settles : Relation.ReflTransGen (Session.Settles now) (d.synced now fleet) (d.consumed now fleet) :=
    Session.consumeAll_settles (synced_sound sound) (complete_of_listed sound)
  obtain ⟨_, consumed⟩ := Session.fresh_of_settles settles (synced_sound sound) synced
  rw [settle_eq]
  split
  · exact consumed
  · exact ⟨consumed.queued, consumed.free⟩

/-- A cycle plans a request that has come in before it and has not expired. -/
lemma plansOnce_of_fresh (sound : d.state.Sound) (h : d.state.Fresh r) (inTime : r.isExpired now = false) :
    d.PlansOnce now fleet r := by
  have settled : (d.settle now fleet).state.Fresh r := settle_fresh sound h
  have sound' : (d.settle now fleet).state.Sound := (settle_steps sound).sound (synced_sound sound)
  have free : (d.settle now fleet).state.registry.isWaitingRequest r.id = false := by
    rw [← Bool.not_eq_true, sound'.registry.isWaitingRequest_iff]
    rintro ⟨c, held, own⟩
    exact settled.free c held own
  have planned : r.id ∈ d.plans now fleet := mem_plans.mpr ⟨⟨r, settled.queued⟩, free⟩
  constructor
  case planned => exact planned
  case counted =>
    show ((d.plans now fleet).foldl RequestQueue.countAttempt (d.settle now fleet).state.queue).get? r.id = _
    rw [RequestQueue.get?_countAttempts, settled.queued, List.count_eq_one_of_mem nodup_plans planned]
    rfl
  case plannable =>
    refine isPlannable_planned.mpr ⟨planned, ?_⟩
    rw [settled.queued]
    exact inTime

end Dispatcher

namespace Simulation

variable {sim sim' next : Simulation} {e c : ScheduledEvent} {id : RequestId} {r : Request}

/-- A request has been given up. -/
def GaveUp (sim : Simulation) (id : RequestId) : Prop :=
  sim.dispatcher.state.queue.get? id = none ∧
    ∃ ride ∈ sim.log.rides, ride.stage = .rejected ∧ ride.request = id

/-- A request waits for a cycle: the cycle is the only one to come, and until the request is given up it is
fresh and its expiry, if it has one, is to come. -/
structure Awaits (sim : Simulation) (c : ScheduledEvent) (r : Request) : Prop where
  cycle : sim.clock.due .dispatchCycle = [c]
  heard : sim.upcoming.contains r.id = false
  waits : sim.GaveUp r.id ∨ sim.dispatcher.state.Fresh r ∧ (r.latestStart ≠ .never →
    ∃ x ∈ sim.clock.pending, x.kind = .requestExpired ∧ x.request? = some r.id ∧ x.time = r.latestStart)

/-- What happens does not concern a request. -/
structure Spares (sim next : Simulation) (id : RequestId) : Prop where
  upcoming : sim.upcoming.contains id = false → next.upcoming.contains id = false
  log : sim.log.rides ⊆ next.log.rides
  queue : next.dispatcher.state.queue.get? id = sim.dispatcher.state.queue.get? id
  registry : ∀ c, next.dispatcher.state.registry.Holds c → sim.dispatcher.state.registry.Holds c

lemma Spares.refl (sim : Simulation) (id : RequestId) : sim.Spares sim id :=
  ⟨fun heard => heard, List.Subset.refl _, rfl, fun _ held => held⟩

lemma Spares.gaveUp (spares : sim.Spares next id) (h : sim.GaveUp id) : next.GaveUp id := by
  obtain ⟨gone, ride, logged, rejected⟩ := h
  exact ⟨spares.queue.trans gone, ride, spares.log logged, rejected⟩

lemma Spares.fresh (spares : sim.Spares next r.id) (h : sim.dispatcher.state.Fresh r) :
    next.dispatcher.state.Fresh r :=
  ⟨spares.queue.trans h.queued, fun c held => h.free c (spares.registry c held)⟩

lemma spares_endTasks {v : VehicleId} : sim.Spares (sim.endTasks v) id where
  upcoming := fun heard => heard
  log := by
    unfold endTasks
    rw [Log.rides_recordRides]
    exact List.subset_append_left _ _
  queue := rfl
  registry := fun _ held => held

lemma spares_expire {other : RequestId} (sound : sim.dispatcher.state.Sound) (different : other ≠ id) :
    sim.Spares (sim.expire other) id := by
  cases gone : sim.dispatcher.withdraw other sim.clock.now with
  | none => exact (expire_of_none gone).symm ▸ .refl sim id
  | some w =>
    rw [expire_of_some gone]
    rw [Dispatcher.withdraw_eq sound] at gone
    obtain ⟨request, _, rfl⟩ := Option.map_eq_some_iff.mp gone
    constructor
    case upcoming => exact fun heard => heard
    case log =>
      rw [Log.rides_recordRide, Log.rides_recordConfirmations]
      exact List.subset_append_left _ _
    case queue =>
      show (sim.dispatcher.state.queue.erase other).get? id = _
      rw [RequestQueue.get?_erase, if_neg different]
    case registry => exact fun c held => ((Registry.holds_release sound.registry).mp held).1

lemma spares_submit {other : RequestId} (heard : sim.upcoming.contains id = false) :
    sim.Spares (sim.submit other) id := by
  cases found : sim.upcoming[other]? with
  | none =>
    rw [submit_of_absent found]
    exact .refl sim id
  | some spec =>
    have different : other ≠ id := by
      rintro rfl
      rw [Table.contains_eq_isSome, found] at heard
      cases heard
    rw [submit_eq found]
    constructor
    case upcoming =>
      intro _
      rw [Table.contains_erase, heard, Bool.and_false]
    case log =>
      rw [Log.rides_recordRide]
      exact List.subset_append_left _ _
    case queue =>
      show (sim.dispatcher.state.queue.insert _).get? id = _
      rw [RequestQueue.get?_insert]
      exact if_neg different
    case registry => exact fun _ held => held

/-- Only a cycle and its own expiry concern a request that has come in. -/
lemma spares_handle (sound : sim.dispatcher.state.Sound) (heard : sim.upcoming.contains id = false)
    (other : e.kind ≠ .dispatchCycle) (different : e.kind = .requestExpired → e.request? ≠ some id) :
    sim.Spares (sim.handle e) id := by
  have happens := sim.happens e
  generalize sim.handle e = next at happens ⊢
  cases happens with
  | tasksEnd => exact spares_endTasks
  | expires kind own =>
    refine spares_expire sound ?_
    rintro rfl
    exact different kind own
  | cycle kind => exact absurd kind other
  | comesIn => exact spares_submit heard
  | nothing => exact .refl sim id

/-- A queued request is given up at its expiry. -/
lemma gaveUp_expire (sound : sim.dispatcher.state.Sound)
    (queued : sim.dispatcher.state.queue.get? id = some r) : (sim.expire id).GaveUp id := by
  have gone : sim.dispatcher.withdraw id sim.clock.now = (sim.dispatcher.state.queue.get? id).map _ :=
    Dispatcher.withdraw_eq sound
  rw [queued, Option.map_some] at gone
  rw [expire_of_some gone]
  constructor
  · show (sim.dispatcher.state.queue.erase id).get? id = none
    rw [RequestQueue.get?_erase, if_pos rfl]
  · refine ⟨⟨sim.clock.now, .rejected, id, r.passenger, none⟩, ?_, rfl, rfl⟩
    rw [Log.rides_recordRide]
    exact List.mem_append_right _ List.mem_cons_self

/-- Nothing happens at the expiry of a request that has been given up. -/
lemma expire_of_gaveUp (h : sim.GaveUp id) : sim.expire id = sim := by
  apply expire_of_none
  unfold Dispatcher.withdraw
  rw [h.1]

/-- As long as a cycle is to come, no other one is scheduled. -/
lemma due_handle (only : sim.clock.due .dispatchCycle = [c]) :
    (sim.handle e).clock.due .dispatchCycle = [c] := by
  have none_ : sim.cycleAppointment = [] := by
    rw [cycleAppointment_eq, only]
    rfl
  rw [clock_handle]
  obtain ⟨others, different, same | same⟩ := sim.appointments_cases (e := e)
  · rw [same]
    exact List.perm_singleton.mp (only ▸ Clock.due_scheduleAll different)
  · rw [same, none_, List.append_nil]
    exact List.perm_singleton.mp (only ▸ Clock.due_scheduleAll different)

namespace Awaits

/-- Whatever else happens before the cycle, the request waits for it. -/
lemma step? (h : sim.Awaits c r) (sound : sim.dispatcher.state.Sound)
    (step : sim.step? = some (e, sim')) (other : e.kind ≠ .dispatchCycle) : sim'.Awaits c r := by
  obtain ⟨rest, pending, _, rfl⟩ := step?_eq_some step
  have only : (sim.taking e rest).clock.due .dispatchCycle = [c] := by
    have only := h.cycle
    unfold Clock.due at only
    rw [pending, List.filter_cons_of_neg (by simpa using other)] at only
    exact only
  have more : rest ⊆ ((sim.taking e rest).handle e).clock.pending := by
    rw [clock_handle]
    exact Clock.pending_scheduleAll (c := (sim.taking e rest).clock)
  have sound : (sim.taking e rest).dispatcher.state.Sound := sound
  by_cases own : e.kind = .requestExpired ∧ e.request? = some r.id
  · have expires : (sim.taking e rest).handle e = (sim.taking e rest).expire r.id := by
      unfold handle
      rw [own.1]
      simp only [own.2]
    have gone : ((sim.taking e rest).handle e).GaveUp r.id := by
      rw [expires]
      rcases h.waits with gone | ⟨fresh, _⟩
      · have gone : (sim.taking e rest).GaveUp r.id := gone
        rw [expire_of_gaveUp gone]
        exact gone
      · exact gaveUp_expire sound fresh.queued
    refine ⟨due_handle only, ?_, .inl gone⟩
    rw [expires]
    cases withdrawn : (sim.taking e rest).dispatcher.withdraw r.id (sim.taking e rest).clock.now with
    | none => exact (expire_of_none withdrawn).symm ▸ h.heard
    | some w => exact (expire_of_some withdrawn).symm ▸ h.heard
  · have spares := spares_handle sound h.heard other fun kind same => own ⟨kind, same⟩
    refine ⟨due_handle only, spares.upcoming h.heard, ?_⟩
    rcases h.waits with gone | ⟨fresh, expiry⟩
    · exact .inl (spares.gaveUp gone)
    · refine .inr ⟨spares.fresh fresh, fun deadline => ?_⟩
      obtain ⟨x, member, kind, request, time⟩ := expiry deadline
      rw [pending] at member
      rcases List.mem_cons.mp member with rfl | member
      · exact absurd ⟨kind, request⟩ own
      · exact ⟨x, more member, kind, request, time⟩

/-- The next cycle is the one that the request waits for. It plans the request for the first time, unless that
has been given up. -/
lemma plans (h : sim.Awaits c r) (ordered : sim.clock.Ordered) (sound : sim.dispatcher.state.Sound)
    (step : sim.step? = some (e, sim')) (cycle : e.kind = .dispatchCycle) :
    e = c ∧ (sim.GaveUp r.id ∨ sim.dispatcher.PlansOnce c.time sim.fleet r) := by
  obtain ⟨rest, pending, _, rfl⟩ := step?_eq_some step
  have member : e ∈ sim.clock.due .dispatchCycle :=
    Clock.mem_due.mpr ⟨pending ▸ List.mem_cons_self, cycle⟩
  rw [h.cycle] at member
  obtain rfl := List.mem_singleton.mp member
  refine ⟨rfl, h.waits.imp_right ?_⟩
  rintro ⟨fresh, expiry⟩
  refine Dispatcher.plansOnce_of_fresh sound fresh ?_
  -- at one moment the expiry would have been taken before the cycle
  rw [← Bool.not_eq_true, Request.isExpired_iff]
  rintro ⟨deadline, reached⟩
  obtain ⟨x, listed, kind, _, time⟩ := expiry deadline
  rw [pending] at listed
  have behind := mem_of_other_kind listed (by rw [cycle, kind]; decide)
  refine (ordered.first pending).2 x behind (ScheduledEvent.precedes_of_rank (time ▸ reached) ?_)
  rw [cycle, kind]
  decide

/-- The simulation does not stop before the cycle, unless it is over by then. -/
lemma isOver (h : sim.Awaits c r) (ordered : sim.clock.Ordered) (stopped : sim.step? = none) :
    sim.isOver c.time = true := by
  have member : c ∈ sim.clock.pending :=
    (Clock.mem_due.mp (h.cycle ▸ List.mem_singleton_self c)).1
  obtain ⟨first, rest, pending, ended⟩ := step?_eq_none stopped member
  have early : first.time ≤ c.time := by
    rw [pending] at member
    rcases List.mem_cons.mp member with rfl | behind
    · exact Time.le_refl _
    · exact ScheduledEvent.time_le_of_not_precedes ((ordered.first pending).2 c behind)
  unfold Simulation.isOver at ended ⊢
  split at ended
  · exact decide_eq_true (Time.le_trans (of_decide_eq_true ended) early)
  · cases ended

end Awaits

/-- The expiry of a request, if it has one, is to come once it has been submitted. -/
lemma expiry_of_submission {span : Time} (search : sim.maxSearch = some span)
    (waits : sim.upcoming.contains id = true) :
    ∃ x ∈ (sim.clock.scheduleAll (sim.submissionAppointments id)).pending, x.kind = .requestExpired ∧
      x.request? = some id ∧ x.time = sim.clock.now + span := by
  have asked : sim.submissionAppointments id =
      ⟨sim.clock.now + span, .requestExpired, some (.request id)⟩ :: sim.cycleAppointment := by
    unfold submissionAppointments expiryAppointment
    rw [if_pos waits, search]
    rfl
  rw [asked]
  refine ⟨⟨max (sim.clock.now + span) sim.clock.now, .requestExpired, some (.request id),
    sim.clock.issued⟩, ?_, rfl, rfl, max_add_self⟩
  exact Clock.pending_scheduleAll (c := sim.clock.schedule _ _ _) (Clock.mem_schedule.mpr (.inl rfl))

/-- A request that comes in waits for the next cycle. -/
lemma awaits_of_submission {l : Ledger} {spec : UpcomingRequest} (h : sim.Chronicle l)
    (step : sim.step? = some (e, sim')) (kind : e.kind = .requestSubmitted) (own : e.request? = some id)
    (found : sim.upcoming[id]? = some spec) (only : sim'.clock.due .dispatchCycle = [c]) :
    let r : Request := .immediate id spec.passenger spec.origin spec.destination e.time sim.maxSearch
    sim'.dispatcher.state.Fresh r ∧ sim'.Awaits c r := by
  intro r
  obtain ⟨rest, pending, _, rfl⟩ := step?_eq_some step
  have waits : sim.upcoming.contains id = true := by
    rw [Table.contains_eq_isSome, found]
    rfl
  have submitted : (sim.taking e rest).handle e = (sim.taking e rest).submit id := by
    unfold handle
    rw [kind]
    simp only [own]
  have listed : (sim.taking e rest).upcoming[id]? = some spec := found
  rw [submitted, submit_eq listed] at only ⊢
  have fresh : DispatchState.Fresh (sim.dispatcher.submit r).state r := by
    constructor
    case queued =>
      show (sim.dispatcher.state.queue.insert r).get? r.id = some r
      rw [RequestQueue.get?_insert, if_pos rfl]
    case free =>
      -- a confirmation would be for a request that has come in before
      intro c' held same
      obtain ⟨r', queued, _⟩ := h.balanced.bound c' held
      obtain ⟨r₀, before, n, rfl⟩ := h.balanced.queued _ _ queued
      have known : r₀.id = id := (h.balanced.sound.queue _ _ queued).trans same
      exact h.upcoming id waits (known ▸ List.mem_map_of_mem before)
  refine ⟨fresh, only, ?_, .inr ⟨fresh, ?_⟩⟩
  · show (sim.upcoming.erase id).contains id = false
    rw [Table.contains_erase, decide_eq_true rfl]
    rfl
  · intro deadline
    cases search : sim.maxSearch with
    | none =>
      have forever : r.latestStart = .never := by
        unfold r
        rw [search]
        rfl
      exact absurd forever deadline
    | some span =>
      have due : r.latestStart = e.time + span := by
        unfold r
        rw [search]
        rfl
      rw [due]
      have search : (sim.taking e rest).maxSearch = some span := search
      exact expiry_of_submission search waits

/-! ## Runs -/

/-- The simulations that steps lead to before the next cycle. -/
abbrev ReachesBeforeCycle : Simulation → Simulation → Prop :=
  Relation.ReflTransGen fun sim next => ∃ e, sim.step? = some (e, next) ∧ e.kind ≠ .dispatchCycle

lemma ReachesBeforeCycle.reaches (reached : sim.ReachesBeforeCycle sim') : sim.Reaches sim' :=
  Relation.ReflTransGen.mono (fun _ _ ⟨e, step, _⟩ => ⟨e, step⟩) _ _ reached

lemma ReachesBeforeCycle.awaits {l : Ledger} (reached : sim.ReachesBeforeCycle sim')
    (chronicle : sim.Chronicle l) (h : sim.Awaits c r) : sim'.Awaits c r := by
  induction reached with
  | refl => exact h
  | tail before step ih =>
    obtain ⟨e, step, other⟩ := step
    obtain ⟨⟨_, chronicle⟩, _⟩ := (ReachesBeforeCycle.reaches before).chronicle chronicle
    exact ih.step? chronicle.balanced.sound step other

end Simulation

/-! ## The beginning -/

variable {network : Network} {vehicles : List VehicleSpec} {passengers : List PassengerSpec}
variable {params : ScenarioParams} {sim sim' start : Simulation}

/-- The step of a dispatcher that has been built is not zero. -/
lemma Scenario.settings_of_build (built : build network vehicles passengers params = .ok sim) :
    sim.dispatcher.settings = params.settings ∧ 0 < params.settings.reoptimizationStep.toNat := by
  have settings : sim.dispatcher.settings = params.settings := by
    obtain ⟨_, _, _, _, _, rfl⟩ := build_eq_ok built
    rfl
  refine ⟨settings, ?_⟩
  unfold build at built
  obtain ⟨dispatcher, made, _⟩ := bind_eq_ok built
  have nonzero : params.settings.reoptimizationStepSecs ≠ 0 := by
    intro zero
    have invalid : params.settings.validate = .error .zeroReoptimizationStep := if_pos zero
    unfold Dispatcher.ofSettings at made
    rw [invalid] at made
    cases made
  have pos : 0 < params.settings.reoptimizationStepSecs.toNat :=
    Nat.pos_of_ne_zero fun zero => nonzero (UInt64.toNat_inj.mp zero)
  unfold Settings.reoptimizationStep
  rw [Time.toNat_ofSecs, Time.toNat_never]
  omega

lemma Scenario.paced_of_start (built : build network vehicles passengers params = .ok sim)
    (started : start = sim ∨ start = sim.scheduleFirstCycle) :
    start.dispatcher.settings = params.settings ∧
      start.clock.Paced params.settings.reoptimizationStep := by
  obtain ⟨settings, _⟩ := settings_of_build built
  obtain ⟨zero, _, calm⟩ := clock_of_build built
  have none_ : sim.clock.due .dispatchCycle = [] := by
    rw [List.eq_nil_iff_forall_not_mem]
    intro e member
    obtain ⟨member, cycle⟩ := Clock.mem_due.mp member
    rw [calm e member] at cycle
    cases cycle
  rcases started with rfl | rfl
  · refine ⟨settings, ?_, ?_⟩
    · rw [none_]
      exact Nat.zero_le _
    · rw [none_]
      exact List.forall_mem_nil _
  · have one : (sim.clock.schedule 0 .dispatchCycle none).due .dispatchCycle =
        [⟨0, .dispatchCycle, none, sim.clock.issued⟩] :=
      Clock.due_schedule_cycle none_ (zero ▸ Time.le_refl _)
    refine ⟨settings, Nat.le_of_eq (congrArg List.length one), ?_⟩
    intro e member
    have first := List.mem_singleton.mp (one ▸ member)
    exact .inl (congrArg ScheduledEvent.time first)

/-- A cycle that is to come lies on a multiple of the step, unless the multiples have run out of times. -/
lemma Clock.Paced.multiple {clock : Clock} {step : Time} {c : ScheduledEvent} (h : clock.Paced step)
    (pos : 0 < step.toNat) (member : c ∈ clock.due .dispatchCycle) :
    step.toNat ∣ c.time.toNat ∨ c.time = .never ∧ ¬ NextFits clock.now step := by
  rcases h.grid c member with zero | ⟨s, early, time⟩
  · rw [zero]
    exact .inl (Nat.dvd_zero _)
  · rw [time]
    by_cases fits : NextFits s step
    · exact .inl (isLeast_nextCycleTime pos fits).1.1
    · exact .inr ⟨nextCycleTime_eq_never pos fits, fun later => fits (later.mono early)⟩

namespace Simulation

/-- Whatever the scenario, and whether or not it begins with a cycle, at every moment of its simulation there
is at most one cycle to come, there is one if the dispatcher has work, and it lies on a multiple of the step,
as long as there are times for them. Once a request has come in, a single cycle is to come, at the least
multiple of the step after the submission. No other cycle comes before it, and the simulation does not stop
before it unless it is over by then; and if the request has not been given up before, that cycle is the first
that plans it, in time. -/
theorem cadence (built : Scenario.build network vehicles passengers params = .ok sim)
    (started : start = sim ∨ start = sim.scheduleFirstCycle) (reached : start.Reaches sim') :
    let step := params.settings.reoptimizationStep
    (sim'.clock.due .dispatchCycle).length ≤ 1 ∧
      (sim'.dispatcher.hasPendingWork = true → (sim'.clock.due .dispatchCycle).length = 1) ∧
      (∀ c ∈ sim'.clock.due .dispatchCycle,
        step.toNat ∣ c.time.toNat ∨ c.time = .never ∧ ¬ NextFits sim'.clock.now step) ∧
      ∀ e next id spec, sim'.step? = some (e, next) → e.kind = .requestSubmitted →
        e.request? = some id → sim'.upcoming[id]? = some spec →
        let r : Request := .immediate id spec.passenger spec.origin spec.destination e.time sim'.maxSearch
        ∃ c, next.clock.due .dispatchCycle = [c] ∧
          (NextFits e.time step → IsLeast {m | step.toNat ∣ m ∧ e.time.toNat < m} c.time.toNat) ∧
          next.dispatcher.state.queue.get? id = some r ∧ r.attempts = 0 ∧
          ∀ later, next.ReachesBeforeCycle later →
            later.clock.due .dispatchCycle = [c] ∧ (later.step? = none → later.isOver c.time = true) ∧
              ∀ e' after, later.step? = some (e', after) → e'.kind = .dispatchCycle →
                e' = c ∧ (later.GaveUp id ∨ later.dispatcher.PlansOnce c.time later.fleet r) := by
  intro step
  have chronicle := Scenario.chronicle_of_start built started
  obtain ⟨_, ordered⟩ := Scenario.ordered_of_start built started
  obtain ⟨_, pos⟩ := Scenario.settings_of_build built
  obtain ⟨settings, paced⟩ := Scenario.paced_of_start built started
  have attended := reached.attended chronicle (Scenario.attended_of_start built started)
  have pace : start.dispatcher.reoptimizationStep = step := congrArg Settings.reoptimizationStep settings
  obtain ⟨settings', paced⟩ := reached.paced ordered (pace ▸ paced)
  have ordered := reached.ordered ordered
  obtain ⟨⟨_, chronicle⟩, _⟩ := reached.chronicle chronicle
  have pace' : sim'.dispatcher.reoptimizationStep = step :=
    (congrArg Settings.reoptimizationStep settings').trans pace
  rw [pace] at paced
  refine ⟨paced.single, ?_, fun c member => paced.multiple pos member, ?_⟩
  · intro work
    obtain ⟨c, member, cycle⟩ := attended.cycles work
    exact Nat.le_antisymm paced.single (List.length_pos_of_mem (Clock.mem_due.mpr ⟨member, cycle⟩))
  · intro e next id spec stepped kind own found r
    have waits : sim'.upcoming.contains id = true := by
      rw [Table.contains_eq_isSome, found]
      rfl
    obtain ⟨c, only, time⟩ :=
      cycle_of_submission ordered (pace' ▸ paced) (pace' ▸ pos) stepped kind own waits
    obtain ⟨fresh, awaits⟩ := awaits_of_submission chronicle stepped kind own found only
    obtain ⟨_, chronicle'⟩ := chronicle.step? stepped
    refine ⟨c, only, ?_, fresh.queued, rfl, ?_⟩
    · intro fits
      rw [time, pace']
      exact isLeast_nextCycleTime pos fits
    · intro later before
      have awaits := before.awaits chronicle' awaits
      have reached' : sim'.Reaches later := .head ⟨e, stepped⟩ before.reaches
      obtain ⟨⟨_, chronicle⟩, _⟩ := reached'.chronicle chronicle
      have ordered := reached'.ordered ordered
      refine ⟨awaits.cycle, awaits.isOver ordered, ?_⟩
      exact fun e' after stepped' cycle => awaits.plans ordered chronicle.balanced.sound stepped' cycle

/-- In the small town the first cycle comes before the first request. The request is planned by the next one, at
the first second. A town without vehicles in which nobody asks for a ride has one cycle, at the start. -/
theorem cadence_smallTown :
    (SmallTown.network.Finite → ∃ sim sim' e next c after,
      Scenario.build SmallTown.network SmallTown.vehicles SmallTown.passengers SmallTown.params = .ok sim ∧
        sim.scheduleFirstCycle.Reaches sim' ∧ sim'.step? = some (e, next) ∧
        (e.time = 0 ∧ e.kind = .requestSubmitted ∧ e.request? = some ⟨0⟩) ∧
        sim'.clock.due .dispatchCycle = [] ∧ next.clock.due .dispatchCycle = [c] ∧
        IsLeast {m | 1000 ∣ m ∧ 0 < m} c.time.toNat ∧
        next.step? = some (c, after) ∧
        (∃ r, next.dispatcher.state.queue.get? ⟨0⟩ = some r ∧ r.attempts = 0 ∧
          next.dispatcher.PlansOnce c.time next.fleet r) ∧
        (next.dispatcher.hasPendingWork = true ∧ (next.clock.due .dispatchCycle).length = 1) ∧
        after.dispatcher.hasPendingWork = false ∧ (after.clock.due .dispatchCycle).length ≤ 1) ∧
      ∃ sim e sim', Scenario.build (Network.grid 2 2 {}) [] [] { maxSearchSecs := some 600 } = .ok sim ∧
        sim.scheduleFirstCycle.step? = some (e, sim') ∧
        sim.scheduleFirstCycle.clock.due .dispatchCycle = [e] ∧
        (sim.scheduleFirstCycle.clock.due .dispatchCycle).length ≤ 1 ∧
        (sim'.clock.due .dispatchCycle).length ≤ 1 ∧
        (sim'.dispatcher.hasPendingWork = true → (sim'.clock.due .dispatchCycle).length = 1) := by
  constructor
  · intro finite
    have built := SmallTown.build_eq finite
    have submits := SmallTown.step?_after (by decide +kernel :
      (SmallTown.after 1).step?.map Prod.fst = some ⟨0, .requestSubmitted, some (.request ⟨0⟩), 0⟩)
    have plans := SmallTown.step?_after (by decide +kernel :
      (SmallTown.after 2).step?.map Prod.fst = some ⟨⟨1000⟩, .dispatchCycle, none, 4⟩)
    have asked : ∃ spec, (SmallTown.after 1).upcoming[(⟨0⟩ : RequestId)]? = some spec := by
      rw [← Option.isSome_iff_exists]
      decide +kernel
    obtain ⟨spec, asked⟩ := asked
    have working : (SmallTown.after 2).dispatcher.hasPendingWork = true := by decide +kernel
    have fits : NextFits 0 SmallTown.params.settings.reoptimizationStep := by
      unfold NextFits
      decide
    obtain ⟨_, _, _, submission⟩ := Simulation.cadence built (.inr rfl) (SmallTown.reaches_after 1)
    obtain ⟨_, some_, _⟩ := Simulation.cadence built (.inr rfl) (SmallTown.reaches_after 2)
    obtain ⟨single, _⟩ := Simulation.cadence built (.inr rfl) (SmallTown.reaches_after 3)
    obtain ⟨c, only, least, queued, fresh, awaited⟩ := submission _ _ ⟨0⟩ spec submits rfl rfl asked
    obtain ⟨_, _, planned⟩ := awaited _ .refl
    obtain ⟨rfl, given | once⟩ := planned _ _ plans rfl
    · exact absurd (given.1.symm.trans queued) nofun
    · exact ⟨_, _, _, _, _, _, built, SmallTown.reaches_after 1, submits, ⟨rfl, rfl, rfl⟩, by decide +kernel, only,
        least fits, plans, ⟨_, queued, fresh, once⟩, ⟨working, some_ working⟩, by decide +kernel, single⟩
  · have built : Scenario.build (Network.grid 2 2 {}) [] [] { maxSearchSecs := some 600 } = .ok _ := rfl
    refine ⟨_, _, _, built, rfl, rfl, ?_⟩
    obtain ⟨first, _⟩ := Simulation.cadence built (.inr rfl) .refl
    obtain ⟨single, some_, _⟩ := Simulation.cadence built (.inr rfl) (.single ⟨_, rfl⟩)
    exact ⟨first, single, some_⟩

end Simulation

end RideDispatch

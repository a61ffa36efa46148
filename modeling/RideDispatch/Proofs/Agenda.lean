import Mathlib.Logic.Relation
import RideDispatch.Proofs.Table
import RideDispatch.Simulation

/-!
# What is to come

The events to come stand in the order in which they will be taken, and none of them lies in the past: a clock
is `Clock.Ordered`, and scheduling an event and taking one keep it so. An event that happens is one of four
things, or nothing (`Simulation.Happens`). What it asks the clock for is its `Simulation.appointments`, with
the times as they are asked for, and nothing else happens to the clock (`Simulation.clock_handle`).
-/

namespace RideDispatch

/-! ## The order of events -/

namespace ScheduledEvent

variable {a b c : ScheduledEvent}

lemma Precedes.trans (first : a.Precedes b) (second : b.Precedes c) : a.Precedes c := by
  unfold Precedes at *
  rw [Time.lt_iff] at *
  rcases first with earlier | ⟨sameTime, first⟩
  · refine .inl ?_
    rcases second with earlier' | ⟨sameTime', _⟩
    · omega
    · rwa [← sameTime']
  · rw [sameTime]
    refine second.imp_right ?_
    rintro ⟨sameTime', second⟩
    refine ⟨sameTime', ?_⟩
    rcases first with rank | ⟨sameKind, ticket⟩
    · refine .inl ?_
      rcases second with rank' | ⟨sameKind', _⟩
      · omega
      · rwa [← sameKind']
    · rw [sameKind]
      exact second.imp_right fun ⟨sameKind', ticket'⟩ => ⟨sameKind', by omega⟩

lemma not_precedes_self : ¬ a.Precedes a := by
  unfold Precedes
  rw [Time.lt_iff]
  omega

lemma Precedes.asymm (h : a.Precedes b) : ¬ b.Precedes a := fun back => not_precedes_self (h.trans back)

lemma time_le_of_not_precedes (h : ¬ b.Precedes a) : a.time ≤ b.time :=
  Time.not_lt.mp fun earlier => h (.inl earlier)

/-- Of two events at one time, the one of a lower rank precedes. -/
lemma precedes_of_rank (time : a.time ≤ b.time) (rank : a.kind.rank < b.kind.rank) : a.Precedes b := by
  rw [Time.le_iff] at time
  rcases Nat.lt_or_eq_of_le time with earlier | same
  · exact .inl (Time.lt_iff.mpr earlier)
  · exact .inr ⟨Time.ext same, .inl rank⟩

end ScheduledEvent

/-! ## Clocks -/

/-- What the clock is asked for: an event at a time. -/
structure Appointment where
  time : Time
  kind : EventKind
  subject : Option EventSubject

namespace Clock

variable {c : Clock} {e : ScheduledEvent} {events : List ScheduledEvent} {time : Time}
variable {kind other : EventKind} {subject : Option EventSubject} {asked : List Appointment}

/-- The events to come are in order, and none of them lies in the past. -/
structure Ordered (c : Clock) : Prop where
  sorted : c.pending.Pairwise fun a b => ¬ b.Precedes a
  ahead : ∀ e ∈ c.pending, c.now ≤ e.time

lemma mem_schedule : e ∈ (c.schedule time kind subject).pending ↔
    e = ⟨max time c.now, kind, subject, c.issued⟩ ∨ e ∈ c.pending := by
  unfold schedule
  rw [(insert_perm _ _).mem_iff, List.mem_cons]

lemma insert_sorted (h : events.Pairwise fun a b => ¬ b.Precedes a) :
    (insert e events).Pairwise fun a b => ¬ b.Precedes a := by
  induction events with
  | nil => exact List.pairwise_singleton _ _
  | cons first rest ih =>
    obtain ⟨later, sorted⟩ := List.pairwise_cons.mp h
    unfold insert
    split
    · rename_i before
      refine List.pairwise_cons.mpr ⟨?_, h⟩
      intro x member
      rcases List.mem_cons.mp member with rfl | member
      · exact before.asymm
      · exact fun back => later x member (back.trans before)
    · rename_i behind
      refine List.pairwise_cons.mpr ⟨?_, ih sorted⟩
      intro x member
      rcases List.mem_cons.mp ((insert_perm e rest).mem_iff.mp member) with rfl | member
      · exact behind
      · exact later x member

lemma Ordered.schedule (h : c.Ordered) : (c.schedule time kind subject).Ordered where
  sorted := insert_sorted h.sorted
  ahead := by
    intro e member
    rcases mem_schedule.mp member with rfl | member
    · rw [Time.le_iff, Time.toNat_max]
      exact Nat.le_max_right _ _
    · exact h.ahead e member

/-- The event that is taken is the first one. -/
lemma Ordered.first (h : c.Ordered) (pending : c.pending = e :: events) :
    c.now ≤ e.time ∧ ∀ other ∈ events, ¬ other.Precedes e := by
  have sorted := h.sorted
  rw [pending] at sorted
  exact ⟨h.ahead e (pending ▸ List.mem_cons_self), (List.pairwise_cons.mp sorted).1⟩

lemma Ordered.pop (h : c.Ordered) (pending : c.pending = e :: events) :
    { c with now := e.time, pending := events }.Ordered where
  sorted := by
    have sorted := h.sorted
    rw [pending] at sorted
    exact (List.pairwise_cons.mp sorted).2
  ahead other member := ScheduledEvent.time_le_of_not_precedes ((h.first pending).2 other member)

/-- The events of a kind that are to come. -/
def due (c : Clock) (kind : EventKind) : List ScheduledEvent := c.pending.filter fun e => e.kind = kind

lemma mem_due : e ∈ c.due kind ↔ e ∈ c.pending ∧ e.kind = kind := by
  unfold due
  rw [List.mem_filter, decide_eq_true_iff]

lemma hasPending_eq : c.hasPending kind = !(c.due kind).isEmpty := by
  rw [Bool.eq_iff_iff, Bool.not_eq_true', List.isEmpty_eq_false_iff_exists_mem]
  unfold hasPending
  rw [List.any_eq_true]
  exact exists_congr fun e => (and_congr_right' decide_eq_true_iff).trans mem_due.symm

lemma due_schedule_self : ((c.schedule time kind subject).due kind).Perm
    (⟨max time c.now, kind, subject, c.issued⟩ :: c.due kind) := by
  unfold due
  refine ((insert_perm _ _).filter _).trans ?_
  rw [List.filter_cons_of_pos (by simp)]

lemma due_schedule_other (different : kind ≠ other) :
    ((c.schedule time kind subject).due other).Perm (c.due other) := by
  unfold due
  refine ((insert_perm _ _).filter _).trans ?_
  rw [List.filter_cons_of_neg (by simpa using different)]

/-- Schedules what is asked for. -/
def scheduleAll (c : Clock) (asked : List Appointment) : Clock :=
  asked.foldl (fun c a => c.schedule a.time a.kind a.subject) c

lemma scheduleAll_append {more : List Appointment} :
    c.scheduleAll (asked ++ more) = (c.scheduleAll asked).scheduleAll more := List.foldl_append

@[simp] lemma now_scheduleAll : (c.scheduleAll asked).now = c.now := by
  induction asked generalizing c with
  | nil => rfl
  | cons a rest ih => exact (ih (c := c.schedule a.time a.kind a.subject)).trans rfl

lemma Ordered.scheduleAll (h : c.Ordered) : (c.scheduleAll asked).Ordered := by
  induction asked generalizing c with
  | nil => exact h
  | cons a rest ih =>
    have one : (c.schedule a.time a.kind a.subject).Ordered := h.schedule
    exact ih one

lemma pending_scheduleAll : c.pending ⊆ (c.scheduleAll asked).pending := by
  induction asked generalizing c with
  | nil => exact List.Subset.refl _
  | cons a rest ih =>
    exact fun e member => ih (c := c.schedule a.time a.kind a.subject) (mem_schedule.mpr (.inr member))

/-- Events of a kind that nobody asks for stay the same. -/
lemma due_scheduleAll (different : ∀ a ∈ asked, a.kind ≠ kind) :
    ((c.scheduleAll asked).due kind).Perm (c.due kind) := by
  induction asked generalizing c with
  | nil => exact .refl _
  | cons a rest ih =>
    exact (ih fun a member => different a (List.mem_cons_of_mem _ member)).trans
      (due_schedule_other (different a List.mem_cons_self))

lemma hasPending_scheduleAll (different : ∀ a ∈ asked, a.kind ≠ kind) :
    (c.scheduleAll asked).hasPending kind = c.hasPending kind := by
  rw [hasPending_eq, hasPending_eq, (due_scheduleAll different).isEmpty_eq]

end Clock

/-! ## The times of cycles -/

section NextCycle

variable {now step : Time}

/-- The first multiple of the step after now is what bare arithmetic tries to compute. -/
lemma nextCycle?_eq (now step : Time) (mode : Arithmetic) : nextCycle? now step mode =
    (mode.word? ((now.toNat / max step.toNat 1 + 1) * max step.toNat 1)).map Time.mk := by
  have width : (max step ⟨1⟩).toNat = max step.toNat 1 := Time.toNat_max step ⟨1⟩
  have pos : 0 < max step.toNat 1 := Nat.lt_of_lt_of_le Nat.one_pos (Nat.le_max_right _ _)
  have few : now.toNat / max step.toNat 1 + 1 ≤ UInt64.size :=
    Nat.succ_le_of_lt (Nat.lt_of_le_of_lt (Nat.div_le_self _ _) now.ms.toNat_lt)
  calc
    nextCycle? now step mode = ((mode.word? (now.toNat / max step.toNat 1 + 1)).bind fun count =>
        mode.word? (count.toNat * max step.toNat 1)).bind (some ∘ Time.mk) := by
      rw [Option.bind_assoc, ← width]
      rfl
    _ = (mode.word? ((now.toNat / max step.toNat 1 + 1) * max step.toNat 1)).bind (some ∘ Time.mk) := by
      rw [Arithmetic.word?_product few pos]
    _ = _ := Option.map_eq_bind.symm

lemma toNat_nextCycleTime : (nextCycleTime now step).toNat =
    min ((now.toNat / max step.toNat 1 + 1) * max step.toNat 1) Time.never.toNat := by
  have same : nextCycleTime now step =
      Time.ofNat ((now.toNat / max step.toNat 1 + 1) * max step.toNat 1) := by
    unfold nextCycleTime Time.ofNat
    rw [nextCycle?_eq, Arithmetic.word?]
    split <;> rfl
  rw [same, Time.toNat_ofNat]

/-- The next cycle does not lie in the past. -/
lemma le_nextCycleTime (now step : Time) : now ≤ nextCycleTime now step := by
  rw [Time.le_iff, toNat_nextCycleTime, Nat.le_min]
  have pos : 0 < max step.toNat 1 := Nat.lt_of_lt_of_le Nat.one_pos (Nat.le_max_right _ _)
  exact ⟨Nat.le_of_lt (Nat.lt_mul_of_div_lt (Nat.lt_succ_self _) pos), now.toNat_le⟩

end NextCycle

/-! ## Simulations -/

namespace Simulation

variable {sim sim' : Simulation} {e : ScheduledEvent} {id : RequestId}

/-- An event is taken, with the others still to come, and is about to happen. -/
def taking (sim : Simulation) (e : ScheduledEvent) (rest : List ScheduledEvent) : Simulation :=
  { sim with clock := { sim.clock with now := e.time, pending := rest } }

/-- A step takes the first event to come and lets it happen. -/
lemma step?_eq_some (step : sim.step? = some (e, sim')) :
    ∃ rest, sim.clock.pending = e :: rest ∧ sim.isOver e.time = false ∧
      sim' = (sim.taking e rest).handle e := by
  unfold step? Clock.pop? at step
  cases pending : sim.clock.pending with
  | nil => simp [pending] at step
  | cons first rest =>
    simp only [pending] at step
    split at step
    · cases step
    · rename_i on
      cases step
      exact ⟨rest, rfl, Bool.eq_false_iff.mpr on, rfl⟩

/-- There is no step if nothing is to come or the simulation is over by then. -/
lemma step?_eq_none (stopped : sim.step? = none) (member : e ∈ sim.clock.pending) :
    ∃ first rest, sim.clock.pending = first :: rest ∧ sim.isOver first.time = true := by
  unfold step? Clock.pop? at stopped
  cases pending : sim.clock.pending with
  | nil =>
    rw [pending] at member
    cases member
  | cons first rest =>
    simp only [pending] at stopped
    split at stopped
    · rename_i ended
      exact ⟨first, rest, rfl, ended⟩
    · cases stopped

/-- The next cycle, unless one is scheduled already. -/
def cycleAppointment (sim : Simulation) : List Appointment :=
  if sim.clock.hasPending .dispatchCycle then []
  else [⟨nextCycleTime sim.clock.now sim.dispatcher.reoptimizationStep, .dispatchCycle, none⟩]

/-- The expiry of a request, if requests expire. -/
def expiryAppointment (sim : Simulation) (id : RequestId) : List Appointment :=
  match sim.maxSearch with
  | none => []
  | some span => [⟨sim.clock.now + span, .requestExpired, some (.request id)⟩]

/-- The ends of the tasks of a fleet that nobody has taken notice of. -/
def wakeupAppointments (fleet : ScheduledFleet) : List Appointment :=
  fleet.wakeups.map fun wakeup => ⟨wakeup.2, .vehicleTaskEnded, some (.vehicle wakeup.1)⟩

/-- What a cycle asks the clock for, by what it leaves. -/
def cycleAppointments (sim : Simulation) (result : CycleResult ScheduledFleet) : List Appointment :=
  wakeupAppointments result.fleet ++
    if result.dispatcher.hasPendingWork then sim.cycleAppointment else []

/-- What a submission asks the clock for. -/
def submissionAppointments (sim : Simulation) (id : RequestId) : List Appointment :=
  if sim.upcoming.contains id then sim.expiryAppointment id ++ sim.cycleAppointment else []

/-- What an event asks the clock for when it happens. -/
def appointments (sim : Simulation) (e : ScheduledEvent) : List Appointment :=
  match e.kind with
  | .vehicleTaskEnded | .requestExpired => []
  | .dispatchCycle =>
    sim.cycleAppointments (sim.dispatcher.runCycle ⟨sim.clock.now, sim.router⟩ sim.fleet)
  | .requestSubmitted =>
    match e.request? with
    | none => []
    | some id => sim.submissionAppointments id

lemma wakeupAppointments_other {fleet : ScheduledFleet} :
    ∀ a ∈ wakeupAppointments fleet, a.kind ≠ .dispatchCycle := by
  intro a member
  obtain ⟨wakeup, _, rfl⟩ := List.mem_map.mp member
  exact nofun

lemma expiryAppointment_other : ∀ a ∈ sim.expiryAppointment id, a.kind ≠ .dispatchCycle := by
  intro a member
  unfold expiryAppointment at member
  split at member
  · cases member
  · rw [List.mem_singleton.mp member]
    exact nofun

lemma ensureCycle_eq : sim.ensureCycle = { sim with
    clock := sim.clock.scheduleAll sim.cycleAppointment
    astray := sim.ensureCycle.astray } := by
  unfold ensureCycle cycleAppointment
  split <;> rfl

lemma scheduleWakeups_eq : sim.scheduleWakeups = { sim with
    fleet := sim.fleet.takeWakeups.2
    clock := sim.clock.scheduleAll (wakeupAppointments sim.fleet) } := by
  unfold wakeupAppointments Clock.scheduleAll
  rw [List.foldl_map]
  rfl

lemma scheduleExpiry_eq :
    sim.scheduleExpiry id = { sim with clock := sim.clock.scheduleAll (sim.expiryAppointment id) } := by
  obtain ⟨clock, log, router, fleet, dispatcher, upcoming, maxSearch, endTime, astray⟩ := sim
  cases maxSearch <;> rfl

/-- Whether a cycle is asked for does not depend on what else has been asked for. -/
lemma cycleAppointment_congr {asked : List Appointment}
    (settings : sim'.dispatcher.settings = sim.dispatcher.settings)
    (clock : sim'.clock = sim.clock.scheduleAll asked)
    (others : ∀ a ∈ asked, a.kind ≠ .dispatchCycle) : sim'.cycleAppointment = sim.cycleAppointment := by
  unfold cycleAppointment Dispatcher.reoptimizationStep
  rw [settings, clock, Clock.now_scheduleAll, Clock.hasPending_scheduleAll others]

lemma ensureCycle_scheduleWakeups : sim.scheduleWakeups.ensureCycle = { sim with
    fleet := sim.fleet.takeWakeups.2
    clock := sim.clock.scheduleAll (wakeupAppointments sim.fleet ++ sim.cycleAppointment)
    astray := sim.scheduleWakeups.ensureCycle.astray } := by
  have same : sim.scheduleWakeups.cycleAppointment = sim.cycleAppointment :=
    cycleAppointment_congr rfl (congrArg clock scheduleWakeups_eq) wakeupAppointments_other
  rw [ensureCycle_eq, same, scheduleWakeups_eq, Clock.scheduleAll_append]

lemma ensureCycle_scheduleExpiry : (sim.scheduleExpiry id).ensureCycle = { sim with
    clock := sim.clock.scheduleAll (sim.expiryAppointment id ++ sim.cycleAppointment)
    astray := (sim.scheduleExpiry id).ensureCycle.astray } := by
  have same : (sim.scheduleExpiry id).cycleAppointment = sim.cycleAppointment :=
    cycleAppointment_congr (by rw [scheduleExpiry_eq]) (congrArg clock scheduleExpiry_eq)
      expiryAppointment_other
  rw [ensureCycle_eq, same, scheduleExpiry_eq, Clock.scheduleAll_append]

/-- What a cycle leaves of the simulation. -/
lemma runCycle_eq : sim.runCycle =
    let result := sim.dispatcher.runCycle ⟨sim.clock.now, sim.router⟩ sim.fleet
    { sim with
      clock := sim.clock.scheduleAll (sim.cycleAppointments result)
      dispatcher := result.dispatcher
      fleet := result.fleet.takeWakeups.2
      log := (scheduledEvents sim.clock.now result.report).foldl Log.recordRide
        (sim.log.recordConfirmations result.events)
      astray := sim.runCycle.astray } := by
  let result := sim.dispatcher.runCycle ⟨sim.clock.now, sim.router⟩ sim.fleet
  let served : Simulation := { sim with
    dispatcher := result.dispatcher
    fleet := result.fleet
    log := (scheduledEvents sim.clock.now result.report).foldl Log.recordRide
      (sim.log.recordConfirmations result.events)
    astray := sim.astray || result.astray }
  have settings : served.dispatcher.settings = sim.dispatcher.settings := rfl
  have unchanged : served.clock = sim.clock.scheduleAll [] := rfl
  have same : served.cycleAppointment = sim.cycleAppointment :=
    cycleAppointment_congr settings unchanged (List.forall_mem_nil _)
  have whole : sim.runCycle = if served.scheduleWakeups.dispatcher.hasPendingWork then
      served.scheduleWakeups.ensureCycle else served.scheduleWakeups := rfl
  rw [whole]
  unfold cycleAppointments
  by_cases work : result.dispatcher.hasPendingWork = true
  · have asked : served.scheduleWakeups.dispatcher.hasPendingWork = true := work
    rw [if_pos asked]
    simp only
    rw [if_pos work, ← same]
    exact ensureCycle_scheduleWakeups
  · have idle : ¬ served.scheduleWakeups.dispatcher.hasPendingWork = true := work
    rw [if_neg idle]
    simp only
    rw [if_neg work, List.append_nil]
    exact scheduleWakeups_eq

/-- What a submission leaves of the simulation if the request has still to come in. -/
lemma submit_eq {spec : UpcomingRequest} (found : sim.upcoming[id]? = some spec) :
    sim.submit id = { sim with
      clock := sim.clock.scheduleAll (sim.submissionAppointments id)
      upcoming := sim.upcoming.erase id
      dispatcher := sim.dispatcher.submit (.immediate id spec.passenger spec.origin spec.destination
        sim.clock.now sim.maxSearch)
      log := sim.log.recordRide ⟨sim.clock.now, .submitted, id, spec.passenger, none⟩
      astray := (sim.submit id).astray } := by
  have waits : sim.upcoming.contains id = true := by
    rw [Table.contains_eq_isSome, found]
    rfl
  let taken : Simulation := { sim with
    upcoming := sim.upcoming.erase id
    dispatcher := sim.dispatcher.submit (.immediate id spec.passenger spec.origin spec.destination
      sim.clock.now sim.maxSearch)
    log := sim.log.recordRide ⟨sim.clock.now, .submitted, id, spec.passenger, none⟩ }
  have whole : sim.submit id = (taken.scheduleExpiry id).ensureCycle := by
    unfold submit
    rw [found]
  unfold submissionAppointments
  rw [if_pos waits, whole]
  exact ensureCycle_scheduleExpiry

/-- A request that is not known to come in is not submitted. -/
lemma submit_of_absent (absent : sim.upcoming[id]? = none) : sim.submit id = sim := by
  unfold submit
  rw [absent]

lemma clock_submit : (sim.submit id).clock = sim.clock.scheduleAll (sim.submissionAppointments id) := by
  cases found : sim.upcoming[id]? with
  | none =>
    rw [submit_of_absent found, submissionAppointments, Table.contains_eq_isSome, found]
    rfl
  | some spec => rw [submit_eq found]

/-- Nothing happens at the expiry of a request that is not queued. -/
lemma expire_of_none (absent : sim.dispatcher.withdraw id sim.clock.now = none) : sim.expire id = sim := by
  unfold expire
  simp only [absent]

/-- What the expiry of a queued request leaves of the simulation. -/
lemma expire_of_some {w : Withdrawal} (gone : sim.dispatcher.withdraw id sim.clock.now = some w) :
    sim.expire id = { sim with
      dispatcher := w.dispatcher
      log := (sim.log.recordConfirmations w.events).recordRide
        ⟨sim.clock.now, .rejected, id, w.request.passenger, none⟩ } := by
  unfold expire
  simp only [gone]

lemma clock_expire : (sim.expire id).clock = sim.clock := by
  cases gone : sim.dispatcher.withdraw id sim.clock.now with
  | none => rw [expire_of_none gone]
  | some w => rw [expire_of_some gone]

/-- What an event does to a simulation when it happens. -/
inductive Happens (sim : Simulation) (e : ScheduledEvent) : Simulation → Prop where
  | tasksEnd {v : VehicleId} (kind : e.kind = .vehicleTaskEnded) (own : e.vehicle? = some v) :
    Happens sim e (sim.endTasks v)
  | expires {id : RequestId} (kind : e.kind = .requestExpired) (own : e.request? = some id) :
    Happens sim e (sim.expire id)
  | cycle (kind : e.kind = .dispatchCycle) : Happens sim e sim.runCycle
  | comesIn {id : RequestId} (kind : e.kind = .requestSubmitted) (own : e.request? = some id) :
    Happens sim e (sim.submit id)
  /-- The event does not concern the kind of thing that it should. -/
  | nothing (other : e.kind ≠ .dispatchCycle) (vehicle : e.kind = .vehicleTaskEnded → e.vehicle? = none)
    (request : e.kind ≠ .vehicleTaskEnded → e.request? = none) : Happens sim e sim

lemma happens (sim : Simulation) (e : ScheduledEvent) : sim.Happens e (sim.handle e) := by
  unfold handle
  cases kind : e.kind with
  | vehicleTaskEnded =>
    cases own : e.vehicle? with
    | none => exact .nothing (by rw [kind]; decide) (fun _ => own) (absurd kind)
    | some v => exact .tasksEnd kind own
  | requestExpired =>
    cases own : e.request? with
    | none => exact .nothing (by rw [kind]; decide) (by rw [kind]; nofun) (fun _ => own)
    | some id => exact .expires kind own
  | dispatchCycle => exact .cycle kind
  | requestSubmitted =>
    cases own : e.request? with
    | none => exact .nothing (by rw [kind]; decide) (by rw [kind]; nofun) (fun _ => own)
    | some id => exact .comesIn kind own

/-- All that happens to the clock when an event happens is that it gets what it is asked for. -/
lemma clock_handle : (sim.handle e).clock = sim.clock.scheduleAll (sim.appointments e) := by
  have happens := sim.happens e
  generalize sim.handle e = next at happens ⊢
  unfold appointments
  cases happens with
  | tasksEnd kind => rw [kind]; rfl
  | expires kind => rw [kind]; exact clock_expire
  | cycle kind => rw [kind]; exact congrArg Simulation.clock runCycle_eq
  | comesIn kind own => rw [kind, own]; exact clock_submit
  | nothing other _ request =>
    split
    · rfl
    · rfl
    · rename_i kind
      exact absurd kind other
    · rename_i kind
      rw [request (by rw [kind]; decide)]
      rfl

/-- When a step is taken the clock moves to its event and gets what the event asks for. -/
lemma clock_step? (step : sim.step? = some (e, sim')) :
    ∃ rest, sim.clock.pending = e :: rest ∧ sim'.clock =
      Clock.scheduleAll ⟨e.time, sim.clock.issued, rest⟩ ((sim.taking e rest).appointments e) := by
  obtain ⟨rest, pending, _, rfl⟩ := step?_eq_some step
  exact ⟨rest, pending, clock_handle⟩

lemma now_step? (step : sim.step? = some (e, sim')) : sim'.clock.now = e.time := by
  obtain ⟨rest, _, clock⟩ := clock_step? step
  rw [clock, Clock.now_scheduleAll]

lemma ordered_step? (h : sim.clock.Ordered) (step : sim.step? = some (e, sim')) :
    sim'.clock.Ordered ∧ sim.clock.now ≤ e.time := by
  obtain ⟨rest, pending, clock⟩ := clock_step? step
  exact ⟨clock ▸ (h.pop pending).scheduleAll, (h.first pending).1⟩

end Simulation

end RideDispatch

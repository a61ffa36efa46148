import RideDispatch.Proofs.Quiescence

/-!
# Everything in its time

An event appends to the log only what happens at its moment. That is plain of what the dispatcher tells. Of
the tasks that end it is so because the end of every task is an event to come, so that no task can be over
before the present moment (`Simulation.le_of_attended`): the tasks that a vehicle retires end just then
(`Simulation.reported_endTasks`). What the clock is asked for lies ahead for the same reason, since the ends
of new tasks are those of rides that begin now or later (`Simulation.ahead_of_appointments`). The main
statement is `Simulation.punctual`.
-/

namespace RideDispatch

/-! ## Cycles -/

/-- A commitment takes no task from a vehicle. -/
lemma ScheduledFleet.keeps_tasks_of_commit {f f' : ScheduledFleet} {v id : VehicleId} {request : Request}
    {pickup : Route} {now : Time} {x : Vehicle} (committed : f.commit id request pickup now = .ok f')
    (found : f.vehicle? v = some x) : ∃ y, f'.vehicle? v = some y ∧ x.tasks ⊆ y.tasks := by
  obtain ⟨z, _, _, before, _, _, _, rfl⟩ := commit_eq_ok committed
  rw [vehicle?_insert]
  split
  · rename_i own
    subst own
    obtain rfl := Option.some.inj (found.symm.trans before)
    exact ⟨_, rfl, List.subset_append_left _ _⟩
  · exact ⟨x, found, List.Subset.refl _⟩

namespace Session

section Dated

variable {φ : Type} [Fleet φ] {s s' : Session φ} {now : Time}

/-- What a step tells it tells of its own moment. -/
lemma Step.dated (step : Step now s s') (h : ∀ e ∈ s.events, e.time = now) :
    ∀ e ∈ s'.events, e.time = now := by
  cases step with
  | sync => exact h
  | attempts => exact h
  | tally => exact h
  | note => exact h
  | opens _ added =>
    obtain ⟨rfl, _, rfl, _⟩ := Registry.add_eq_ok added
    exact List.forall_mem_append.mpr ⟨h, List.forall_mem_singleton.mpr rfl⟩
  | commits => exact List.forall_mem_append.mpr ⟨h, List.forall_mem_singleton.mpr rfl⟩
  | drops => exact List.forall_mem_append.mpr ⟨h, List.forall_mem_singleton.mpr rfl⟩

lemma Steps.dated (steps : Steps now s s') (h : ∀ e ∈ s.events, e.time = now) :
    ∀ e ∈ s'.events, e.time = now := by
  induction steps with
  | refl => exact h
  | tail _ step ih => exact step.dated ih

end Dated

variable {s s' : Session ScheduledFleet} {now : Time} {v : VehicleId} {x : Vehicle}

/-- No step takes a task from a vehicle. -/
lemma Step.keeps_tasks (step : Step now s s') (found : s.fleet.vehicle? v = some x) :
    ∃ y, s'.fleet.vehicle? v = some y ∧ x.tasks ⊆ y.tasks := by
  have same : ∃ y, s.fleet.vehicle? v = some y ∧ x.tasks ⊆ y.tasks := ⟨x, found, List.Subset.refl _⟩
  cases step with
  | sync => exact same
  | attempts => exact same
  | tally => exact same
  | note => exact same
  | opens => exact same
  | drops => exact same
  | commits _ _ outcome =>
    obtain ⟨_, _, _, _, _, committed⟩ := outcome_eq_ok outcome
    exact ScheduledFleet.keeps_tasks_of_commit committed found

lemma Steps.keeps_tasks (steps : Steps now s s') (found : s.fleet.vehicle? v = some x) :
    ∃ y, s'.fleet.vehicle? v = some y ∧ x.tasks ⊆ y.tasks := by
  induction steps with
  | refl => exact ⟨x, found, List.Subset.refl _⟩
  | tail _ step ih =>
    obtain ⟨y, found, more⟩ := ih
    obtain ⟨z, found, more'⟩ := step.keeps_tasks found
    exact ⟨z, found, fun t member => more' (more member)⟩

end Session

/-! ## The log -/

section Log

variable {log : Log}

lemma Log.toList_recordRides {events : List RideEvent} :
    (events.foldl Log.recordRide log).toList = log.toList ++ events.map .ride := by
  induction events generalizing log with
  | nil => exact (List.append_nil _).symm
  | cons e rest ih =>
    rw [List.foldl_cons, ih, recordRide, toList_push, List.append_assoc]
    rfl

end Log

/-- A ride event tells of the end of a task that a vehicle of the fleet has still to do. -/
def ScheduledFleet.Marks (f : ScheduledFleet) (ride : RideEvent) : Prop :=
  ∃ v x t, f.vehicle? v = some x ∧ t ∈ x.tasks ∧ t.endTime = ride.time ∧ (x.report t).rideEvent? = some ride

namespace Simulation

variable {sim sim' : Simulation} {e : ScheduledEvent} {entries : List LogEntry}

/-- What an event appends to the log is of its moment: pickups and drop-offs are the ends of tasks, and the
tasks that have gone have ended just now and are reported. -/
structure Reported (sim next : Simulation) (entries : List LogEntry) : Prop where
  appended : next.log.toList = sim.log.toList ++ entries
  dated : ∀ entry ∈ entries, entry.time = next.clock.now
  marks : ∀ ride, .ride ride ∈ entries → ride.stage = .pickedUp ∨ ride.stage = .droppedOff →
    sim.fleet.Marks ride
  ends : ∀ v x, sim.fleet.vehicle? v = some x → ∀ t ∈ x.tasks,
    (∃ y, next.fleet.vehicle? v = some y ∧ t ∈ y.tasks) ∨
      t.endTime = next.clock.now ∧ ∀ ride, (x.report t).rideEvent? = some ride → .ride ride ∈ entries

/-- Nothing is reported. -/
lemma Reported.nothing : Reported sim sim [] where
  appended := (List.append_nil _).symm
  dated := List.forall_mem_nil _
  marks := nofun
  ends := fun _ x found _ member => .inl ⟨x, found, member⟩

/-- As long as the end of every task is to come, no task is over before the next event. -/
lemma le_of_attended {asked : Std.ExtTreeMap RequestId UpcomingRequest} {events : List ScheduledEvent}
    (h : sim.Attended asked events) (ahead : ∀ e ∈ events, sim.clock.now ≤ e.time) {v : VehicleId}
    {x : Vehicle} (found : sim.fleet.vehicle? v = some x) {t : Task} (member : t ∈ x.tasks) :
    sim.clock.now ≤ t.endTime := by
  obtain ⟨e, still, _, _, time⟩ := h.ends v x found t member
  exact time ▸ ahead e still

/-- Tasks of a vehicle end. -/
lemma reported_endTasks {v : VehicleId}
    (ahead : ∀ v x, sim.fleet.vehicle? v = some x → ∀ t ∈ x.tasks, sim.clock.now ≤ t.endTime) :
    ∃ entries, Reported sim (sim.endTasks v) entries := by
  cases found : sim.fleet.vehicle? v with
  | none =>
    have same : sim.endTasks v = sim := by
      unfold endTasks ScheduledFleet.advance
      rw [show sim.fleet.vehicles[v]? = none from found]
      rfl
    exact ⟨[], same.symm ▸ .nothing⟩
  | some x =>
    let ended := x.tasks.takeWhile fun t => t.endTime ≤ sim.clock.now
    have retired : sim.fleet.advance v sim.clock.now =
        (ended.map x.report, { sim.fleet with
          vehicles := sim.fleet.vehicles.insert v (x.retire sim.clock.now).2 }) := by
      unfold ScheduledFleet.advance
      rw [show sim.fleet.vehicles[v]? = some x from found]
      rfl
    have onTime : ∀ t ∈ ended, t ∈ x.tasks ∧ t.endTime = sim.clock.now := by
      intro t member
      have listed := (List.takeWhile_sublist _).subset member
      have reached := of_decide_eq_true (List.all_eq_true.mp List.all_takeWhile t member)
      have notYet := ahead v x found t listed
      rw [Time.le_iff] at reached notYet
      exact ⟨listed, Time.ext (Nat.le_antisymm reached notYet)⟩
    have marked : ∀ ride, ride ∈ (ended.map x.report).filterMap TaskEnded.rideEvent? ↔
        ∃ t ∈ ended, (x.report t).rideEvent? = some ride := by
      intro ride
      rw [List.filterMap_map, List.mem_filterMap]
      rfl
    have time : ∀ t ride, (x.report t).rideEvent? = some ride → ride.time = t.endTime := by
      intro t ride marks
      obtain ⟨_, _, rfl⟩ := Option.map_eq_some_iff.mp marks
      rfl
    refine ⟨((ended.map x.report).filterMap TaskEnded.rideEvent?).map .ride, ?_⟩
    constructor
    case appended =>
      unfold endTasks
      rw [retired]
      exact Log.toList_recordRides
    case dated =>
      intro entry member
      obtain ⟨ride, listed, rfl⟩ := List.mem_map.mp member
      obtain ⟨t, gone, marks⟩ := (marked ride).mp listed
      exact (time t ride marks).trans (onTime t gone).2
    case marks =>
      intro ride member _
      obtain ⟨_, listed, same⟩ := List.mem_map.mp member
      cases same
      obtain ⟨t, gone, marks⟩ := (marked ride).mp listed
      exact ⟨v, x, t, found, (onTime t gone).1, (time t ride marks).symm, marks⟩
    case ends =>
      intro w y found' t member
      show (∃ z, (sim.fleet.advance v sim.clock.now).2.vehicle? w = some z ∧ t ∈ z.tasks) ∨ _
      rw [ScheduledFleet.vehicle?_advance]
      by_cases own : v = w
      · subst own
        obtain rfl := Option.some.inj (found.symm.trans found')
        rw [if_pos rfl, found]
        -- a task is among those at the front that are over, or it is left
        rw [← List.takeWhile_append_dropWhile (p := fun t : Task => decide (t.endTime ≤ sim.clock.now))
          (l := x.tasks)] at member
        rcases List.mem_append.mp member with gone | left
        · refine .inr ⟨(onTime t gone).2, fun ride marks => ?_⟩
          exact List.mem_map_of_mem ((marked ride).mpr ⟨t, gone, marks⟩)
        · exact .inl ⟨_, rfl, left⟩
      · rw [if_neg own]
        exact .inl ⟨y, found', member⟩

/-- A request is given up. -/
lemma reported_expire {id : RequestId} (sound : sim.dispatcher.state.Sound) :
    ∃ entries, Reported sim (sim.expire id) entries := by
  cases gone : sim.dispatcher.withdraw id sim.clock.now with
  | none => exact ⟨[], (expire_of_none gone).symm ▸ .nothing⟩
  | some w =>
    let rejected : RideEvent := ⟨sim.clock.now, .rejected, id, w.request.passenger, none⟩
    rw [expire_of_some gone]
    refine ⟨w.events.map .confirmation ++ [.ride rejected], ?_⟩
    constructor
    case appended =>
      show (Log.recordRide _ _).toList = _
      rw [Log.recordRide, Log.toList_push, Log.toList_recordConfirmations, List.append_assoc]
    case dated =>
      refine List.forall_mem_append.mpr ⟨?_, List.forall_mem_singleton.mpr rfl⟩
      intro entry member
      obtain ⟨event, told, rfl⟩ := List.mem_map.mp member
      rw [Dispatcher.withdraw_eq sound] at gone
      obtain ⟨request, _, rfl⟩ := Option.map_eq_some_iff.mp gone
      -- the confirmation of the request is closed now
      obtain ⟨c, _, rfl⟩ := Option.map_eq_some_iff.mp (Option.mem_toList.mp told)
      rfl
    case marks =>
      rintro ride member stage
      rcases List.mem_append.mp member with told | last
      · obtain ⟨_, _, same⟩ := List.mem_map.mp told
        cases same
      · cases List.mem_singleton.mp last
        rcases stage with stage | stage
        · cases stage
        · cases stage
    case ends => exact fun _ x found _ member => .inl ⟨x, found, member⟩

/-- A request comes in. -/
lemma reported_submit {id : RequestId} : ∃ entries, Reported sim (sim.submit id) entries := by
  cases found : sim.upcoming[id]? with
  | none => exact ⟨[], (submit_of_absent found).symm ▸ .nothing⟩
  | some spec =>
    rw [submit_eq found]
    refine ⟨[.ride ⟨sim.clock.now, .submitted, id, spec.passenger, none⟩], ?_⟩
    constructor
    case appended => exact Log.toList_push _ _
    case dated =>
      show ∀ entry ∈ _, _ = (Clock.scheduleAll _ _).now
      rw [Clock.now_scheduleAll]
      exact List.forall_mem_singleton.mpr rfl
    case marks =>
      rintro ride member stage
      cases List.mem_singleton.mp member
      rcases stage with stage | stage
      · cases stage
      · cases stage
    case ends => exact fun _ x found _ member => .inl ⟨x, found, member⟩

/-- A cycle runs. -/
lemma reported_runCycle (sound : sim.dispatcher.state.Sound) :
    ∃ entries, Reported sim sim.runCycle entries := by
  let ctx : CycleContext := ⟨sim.clock.now, sim.router⟩
  have steps : Session.Steps ctx.now (sim.dispatcher.begin ctx.now sim.fleet)
      (sim.dispatcher.pass ctx sim.fleet).session := Dispatcher.pass_steps sound
  have dated : ∀ e ∈ (sim.dispatcher.runCycle ⟨sim.clock.now, sim.router⟩ sim.fleet).events,
      e.time = sim.clock.now := steps.dated (List.forall_mem_nil _)
  have keeps : ∀ v x, sim.fleet.vehicle? v = some x → ∃ y,
      (sim.dispatcher.runCycle ⟨sim.clock.now, sim.router⟩ sim.fleet).fleet.vehicle? v = some y ∧
        x.tasks ⊆ y.tasks := fun v x found => steps.keeps_tasks found
  rw [runCycle_eq]
  generalize sim.dispatcher.runCycle ⟨sim.clock.now, sim.router⟩ sim.fleet = result at dated keeps ⊢
  let scheduled := scheduledEvents sim.clock.now result.report
  have own : ∀ ride ∈ scheduled, ride.time = sim.clock.now ∧ ride.stage = .scheduled := by
    intro ride member
    unfold scheduled scheduledEvents at member
    split at member
    · cases member
    · obtain ⟨_, _, rfl⟩ := List.mem_map.mp member
      exact ⟨rfl, rfl⟩
  refine ⟨result.events.map .confirmation ++ scheduled.map .ride, ?_⟩
  constructor
  case appended =>
    show (scheduled.foldl Log.recordRide _).toList = _
    rw [Log.toList_recordRides, Log.toList_recordConfirmations, List.append_assoc]
  case dated =>
    show ∀ entry ∈ _, _ = (Clock.scheduleAll _ _).now
    rw [Clock.now_scheduleAll]
    refine List.forall_mem_append.mpr ⟨?_, ?_⟩
    · exact List.forall_mem_map.mpr dated
    · exact List.forall_mem_map.mpr fun ride member => (own ride member).1
  case marks =>
    intro ride member stage
    rcases List.mem_append.mp member with told | committed
    · obtain ⟨_, _, same⟩ := List.mem_map.mp told
      cases same
    · obtain ⟨_, listed, same⟩ := List.mem_map.mp committed
      cases same
      rw [(own ride listed).2] at stage
      rcases stage with stage | stage
      · cases stage
      · cases stage
  case ends =>
    intro v x found t member
    obtain ⟨y, after, more⟩ := keeps v x found
    exact .inl ⟨y, after, more member⟩

/-- What an event appends to the log is of its moment. -/
lemma reported_handle (sound : sim.dispatcher.state.Sound)
    (ahead : ∀ v x, sim.fleet.vehicle? v = some x → ∀ t ∈ x.tasks, sim.clock.now ≤ t.endTime) :
    ∃ entries, Reported sim (sim.handle e) entries := by
  have happens := sim.happens e
  generalize sim.handle e = next at happens ⊢
  cases happens with
  | tasksEnd => exact reported_endTasks ahead
  | expires => exact reported_expire sound
  | cycle => exact reported_runCycle sound
  | comesIn => exact reported_submit
  | nothing => exact ⟨[], .nothing⟩

/-! ## The clock -/

lemma ahead_of_cycle {a : Appointment} (member : a ∈ sim.cycleAppointment) : sim.clock.now ≤ a.time := by
  unfold cycleAppointment at member
  split at member
  · cases member
  · rw [List.mem_singleton.mp member]
    exact le_nextCycleTime _ _

lemma ahead_of_expiry {id : RequestId} {a : Appointment} (member : a ∈ sim.expiryAppointment id) :
    sim.clock.now ≤ a.time := by
  unfold expiryAppointment at member
  split at member
  · cases member
  · rw [List.mem_singleton.mp member]
    exact Time.le_add _ _

/-- Nothing is asked for that lies in the past. -/
lemma ahead_of_appointments {asked : Std.ExtTreeMap RequestId UpcomingRequest} {events : List ScheduledEvent}
    (h : sim.Attended asked events) (sound : sim.dispatcher.state.Sound) {a : Appointment}
    (member : a ∈ sim.appointments e) : sim.clock.now ≤ a.time := by
  unfold appointments at member
  split at member
  · cases member
  · cases member
  · -- the tasks that a cycle gives to vehicles end now or later
    have before : sim.fleet.Watched events sim.clock.now :=
      ⟨h.orderly, fun v x found t member => .inl (h.ends v x found t member), by rw [h.noticed]; nofun⟩
    let ctx : CycleContext := ⟨sim.clock.now, sim.router⟩
    have steps : Session.Steps ctx.now (sim.dispatcher.begin ctx.now sim.fleet)
        (sim.dispatcher.pass ctx sim.fleet).session := Dispatcher.pass_steps sound
    rcases List.mem_append.mp member with wakes | next
    · obtain ⟨wakeup, listed, rfl⟩ := List.mem_map.mp wakes
      exact (steps.watched before).ahead wakeup listed
    · split at next
      · exact ahead_of_cycle next
      · cases next
  · split at member
    · cases member
    · unfold submissionAppointments at member
      split at member
      · rcases List.mem_append.mp member with expires | next
        · exact ahead_of_expiry expires
        · exact ahead_of_cycle next
      · cases member

/-! ## Runs -/

/-- The entries of the log are in the order of their times, and none of them lies in the future. -/
structure Chronological (sim : Simulation) : Prop where
  sorted : (sim.log.toList.map LogEntry.time).Pairwise (· ≤ ·)
  past : ∀ entry ∈ sim.log.toList, entry.time ≤ sim.clock.now

lemma Chronological.step (h : sim.Chronological) (reported : Reported sim sim' entries)
    (later : sim.clock.now ≤ sim'.clock.now) : sim'.Chronological := by
  have present : ∀ time ∈ entries.map LogEntry.time, time = sim'.clock.now :=
    List.forall_mem_map.mpr reported.dated
  have past : ∀ time ∈ sim.log.toList.map LogEntry.time, time ≤ sim'.clock.now :=
    List.forall_mem_map.mpr fun entry member => Time.le_trans (h.past entry member) later
  constructor
  case sorted =>
    rw [reported.appended, List.map_append]
    refine List.pairwise_append.mpr ⟨h.sorted, List.pairwise_of_forall_mem_list ?_, ?_⟩
    · intro a first b second
      rw [present a first, present b second]
      exact Time.le_refl _
    · intro a first b second
      rw [present b second]
      exact past a first
  case past =>
    intro entry member
    rw [reported.appended] at member
    rcases List.mem_append.mp member with old | new
    · exact past _ (List.mem_map_of_mem old)
    · rw [reported.dated entry new]
      exact Time.le_refl _

/-- What holds of an attended simulation at its next step. -/
lemma reported_step? {asked : Std.ExtTreeMap RequestId UpcomingRequest}
    (h : sim.Attended asked sim.clock.pending) (ordered : sim.clock.Ordered)
    (sound : sim.dispatcher.state.Sound) (step : sim.step? = some (e, sim')) :
    ∃ rest, sim.clock.pending = e :: rest ∧ (∃ entries, Reported sim sim' entries) ∧
      ∀ a ∈ (sim.taking e rest).appointments e, e.time ≤ a.time := by
  obtain ⟨rest, pending, _, rfl⟩ := step?_eq_some step
  rw [pending] at h
  have taken : (sim.taking e rest).Attended asked (e :: rest) := { h with }
  have ahead : ∀ other ∈ e :: rest, e.time ≤ other.time := by
    refine List.forall_mem_cons.mpr ⟨Time.le_refl _, fun other member => ?_⟩
    exact ScheduledEvent.time_le_of_not_precedes ((ordered.first pending).2 other member)
  obtain ⟨entries, reported⟩ :
      ∃ entries, Reported (sim.taking e rest) ((sim.taking e rest).handle e) entries :=
    reported_handle sound fun _ _ found _ member => le_of_attended taken ahead found member
  refine ⟨rest, pending, ⟨entries, { reported with }⟩, ?_⟩
  exact fun a member => ahead_of_appointments taken sound member

variable {network : Network} {vehicles : List VehicleSpec} {passengers : List PassengerSpec}
variable {params : ScenarioParams} {start : Simulation}

lemma chronological_of_reached (built : Scenario.build network vehicles passengers params = .ok sim)
    (started : start = sim ∨ start = sim.scheduleFirstCycle) (reached : start.Reaches sim') :
    sim'.Chronological := by
  have chronicle := Scenario.chronicle_of_start built started
  have attended := Scenario.attended_of_start built started
  obtain ⟨_, ordered⟩ := Scenario.ordered_of_start built started
  induction reached with
  | refl =>
    have empty : start.log.toList = [] := by
      obtain ⟨_, _, _, _, _, rfl⟩ := Scenario.build_eq_ok built
      rcases started with rfl | rfl
      · rfl
      · rfl
    exact ⟨by rw [empty]; exact .nil, by rw [empty]; exact List.forall_mem_nil _⟩
  | @tail before after reached step ih =>
    obtain ⟨e, step⟩ := step
    have reached : start.Reaches before := reached
    obtain ⟨⟨_, chronicle⟩, _⟩ := reached.chronicle chronicle
    have ordered := reached.ordered ordered
    obtain ⟨_, _, ⟨_, reported⟩, _⟩ :=
      reported_step? (reached.attended (Scenario.chronicle_of_start built started) attended) ordered
        chronicle.balanced.sound step
    exact ih.step reported ((now_step? step).symm ▸ (ordered_step? ordered step).2)

/-- Whatever the scenario, and whether or not it begins with a cycle, at every moment of its simulation the
entries of the log are in the order of their times and none lies in the future; the fleet has no wakeup that
nobody has taken notice of; no event to come lies in the past; and the end of every task of a vehicle that is
not retired is an event to come for that vehicle at that time. The next step moves the clock to its event.
What it appends to the log is of that moment: a pickup or drop-off is logged at the end of its task, and the
tasks that are retired have ended just then. The clock is asked for nothing that lies in the past, neither by
a step nor, as it stands at zero then, before the first one. -/
theorem punctual (built : Scenario.build network vehicles passengers params = .ok sim)
    (started : start = sim ∨ start = sim.scheduleFirstCycle) (reached : start.Reaches sim') :
    start.clock.now = 0 ∧
      (sim'.log.toList.map LogEntry.time).Pairwise (· ≤ ·) ∧
      (∀ entry ∈ sim'.log.toList, entry.time ≤ sim'.clock.now) ∧
      sim'.fleet.wakeups = [] ∧
      (∀ e ∈ sim'.clock.pending, sim'.clock.now ≤ e.time) ∧
      (∀ v x, sim'.fleet.vehicle? v = some x → ∀ t ∈ x.tasks, Wakes sim'.clock.pending v t.endTime) ∧
      ∀ e next, sim'.step? = some (e, next) → next.clock.now = e.time ∧
        (∃ entries, Reported sim' next entries) ∧
        ∃ rest, sim'.clock.pending = e :: rest ∧
          next.clock = Clock.scheduleAll ⟨e.time, sim'.clock.issued, rest⟩
            ((sim'.taking e rest).appointments e) ∧
          ∀ a ∈ (sim'.taking e rest).appointments e, e.time ≤ a.time := by
  obtain ⟨zero, ordered⟩ := Scenario.ordered_of_start built started
  have chronicle := Scenario.chronicle_of_start built started
  have attended := reached.attended chronicle (Scenario.attended_of_start built started)
  have ordered := reached.ordered ordered
  have chronological := chronological_of_reached built started reached
  obtain ⟨⟨_, chronicle⟩, _⟩ := reached.chronicle chronicle
  refine ⟨zero, chronological.sorted, chronological.past, attended.noticed, ordered.ahead, attended.ends, ?_⟩
  intro e next step
  obtain ⟨rest, pending, reported, ahead⟩ :=
    reported_step? attended ordered chronicle.balanced.sound step
  obtain ⟨rest', pending', clock⟩ := clock_step? step
  obtain rfl : rest' = rest := by
    rw [pending] at pending'
    exact ((List.cons.inj pending').2).symm
  exact ⟨now_step? step, reported, rest', pending, clock, ahead⟩

/-- The small town when the first passenger is picked up, and a town without vehicles in which nobody asks for a ride
when its first cycle comes. -/
theorem punctual_smallTown :
    (SmallTown.network.Finite → ∃ sim sim' e next x,
      Scenario.build SmallTown.network SmallTown.vehicles SmallTown.passengers SmallTown.params = .ok sim ∧
        sim.scheduleFirstCycle.Reaches sim' ∧ sim'.step? = some (e, next) ∧
        (sim'.log.toList.map LogEntry.time = [0, ⟨1000⟩, ⟨1000⟩, ⟨1000⟩, ⟨10000⟩, ⟨15000⟩] ∧
          (sim'.log.toList.map LogEntry.time).Pairwise (· ≤ ·)) ∧
        (∀ entry ∈ sim'.log.toList, entry.time ≤ sim'.clock.now) ∧ sim'.fleet.wakeups = [] ∧
        (∀ e ∈ sim'.clock.pending, sim'.clock.now ≤ e.time) ∧
        (sim'.fleet.vehicle? ⟨1⟩ = some x ∧ x.tasks.map Task.endTime = [⟨121000⟩, ⟨121000⟩, ⟨181000⟩] ∧
          ∀ t ∈ x.tasks, Wakes sim'.clock.pending ⟨1⟩ t.endTime) ∧
        (e.time = ⟨121000⟩ ∧ next.clock.now = ⟨121000⟩) ∧
        ∃ entries, Reported sim' next entries ∧
          (next.told ⟨0⟩).map RideEvent.stage = [.submitted, .scheduled, .pickedUp]) ∧
      ∃ sim e sim', Scenario.build (Network.grid 2 2 {}) [] [] { maxSearchSecs := some 600 } = .ok sim ∧
        sim.scheduleFirstCycle.step? = some (e, sim') ∧ sim'.clock.now = e.time ∧
        (∃ entries, Reported sim.scheduleFirstCycle sim' entries) ∧ sim'.fleet.wakeups = [] ∧
        (sim'.log.toList.map LogEntry.time).Pairwise (· ≤ ·) := by
  constructor
  · intro finite
    have built := SmallTown.build_eq finite
    have ends := SmallTown.step?_after (by decide +kernel : (SmallTown.after 12).step?.map Prod.fst =
      some ⟨⟨121000⟩, .vehicleTaskEnded, some (.vehicle ⟨1⟩), 6⟩)
    obtain ⟨x, found⟩ : ∃ x, (SmallTown.after 12).fleet.vehicle? ⟨1⟩ = some x := by
      rw [← Option.isSome_iff_exists]
      decide +kernel
    have tasks : ((SmallTown.after 12).fleet.vehicle? ⟨1⟩).map (fun x => x.tasks.map Task.endTime) =
        some [⟨121000⟩, ⟨121000⟩, ⟨181000⟩] := by decide +kernel
    rw [found] at tasks
    obtain ⟨_, sorted, past, noticed, ahead, wakes, next⟩ :=
      Simulation.punctual built (.inr rfl) (SmallTown.reaches_after 12)
    obtain ⟨now_, ⟨entries, reported⟩, _⟩ := next _ _ ends
    exact ⟨_, _, _, _, x, built, SmallTown.reaches_after 12, ends, ⟨by decide +kernel, sorted⟩, past, noticed, ahead,
      ⟨found, Option.some.inj tasks, wakes _ _ found⟩, ⟨rfl, now_⟩, entries, reported, by decide +kernel⟩
  · have built : Scenario.build (Network.grid 2 2 {}) [] [] { maxSearchSecs := some 600 } = .ok _ := rfl
    refine ⟨_, _, _, built, rfl, ?_⟩
    obtain ⟨_, _, _, _, _, _, next⟩ := Simulation.punctual built (.inr rfl) .refl
    obtain ⟨now_, reported, _⟩ := next _ _ rfl
    obtain ⟨_, sorted, _, noticed, _⟩ := Simulation.punctual built (.inr rfl) (.single ⟨_, rfl⟩)
    exact ⟨now_, reported, noticed, sorted⟩

end Simulation

end RideDispatch

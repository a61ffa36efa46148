import RideDispatch.Proofs.Chronicle
import RideDispatch.Proofs.Schedule

/-!
# Nothing is left behind

A simulation is `Attended` by the events to come if each of them that something waits for is there: the end
of every task, a cycle as long as the dispatcher has work, and the submission of every request that has not
come in. The event that happens may be the one that was waited for, so each handler is looked at with the
event still at hand (`Attended.handle`). Once nothing is to come, nothing waits: every request has been
settled, and the dispatcher and the vehicles have nothing left to do
(`Simulation.settled_of_nothing_pending`).
-/

namespace RideDispatch

/-- One of the events is the end of a task of a vehicle at a time. -/
def Wakes (events : List ScheduledEvent) (v : VehicleId) (time : Time) : Prop :=
  ∃ e ∈ events, e.kind = .vehicleTaskEnded ∧ e.vehicle? = some v ∧ e.time = time

lemma Wakes.mono {events events' : List ScheduledEvent} {v : VehicleId} {time : Time}
    (h : Wakes events v time) (more : events ⊆ events') : Wakes events' v time := by
  obtain ⟨e, member, same⟩ := h
  exact ⟨e, more member, same⟩

/-- An event that is taken is not one of another kind. -/
lemma mem_of_other_kind {e e' : ScheduledEvent} {rest : List ScheduledEvent} (member : e' ∈ e :: rest)
    (other : e.kind ≠ e'.kind) : e' ∈ rest := by
  rcases List.mem_cons.mp member with rfl | member
  · exact absurd rfl other
  · exact member

/-! ## Fleets -/

namespace ScheduledFleet

variable {f f' : ScheduledFleet} {events : List ScheduledEvent} {now : Time}

/-- The end of every task is an event to come or a wakeup, and no wakeup lies in the past. -/
structure Watched (f : ScheduledFleet) (events : List ScheduledEvent) (now : Time) : Prop where
  orderly : f.Orderly
  ends : ∀ v x, f.vehicle? v = some x → ∀ t ∈ x.tasks,
    Wakes events v t.endTime ∨ (v, t.endTime) ∈ f.wakeups
  ahead : ∀ wakeup ∈ f.wakeups, now ≤ wakeup.2

lemma Watched.commit {id : VehicleId} {request : Request} {pickup : Route} (h : f.Watched events now)
    (committed : f.commit id request pickup now = .ok f') : f'.Watched events now := by
  have orderly := h.orderly.commit committed
  obtain ⟨x, occupied, start, found, begins, _, _, rfl⟩ := commit_eq_ok committed
  have late : now ≤ start := by
    rw [begins, Time.le_iff, Time.toNat_max, Time.toNat_max]
    omega
  refine ⟨orderly, ?_, ?_⟩
  · intro v y same t member
    rw [vehicle?_insert] at same
    split at same
    · rename_i own
      subst own
      cases same
      rcases List.mem_append.mp member with old | new
      · exact (h.ends id x found t old).imp_right (List.mem_append_left _)
      · exact .inr (List.mem_append_right _ (List.mem_map.mpr ⟨t, new, rfl⟩))
    · exact (h.ends v y same t member).imp_right (List.mem_append_left _)
  · intro wakeup member
    rcases List.mem_append.mp member with old | new
    · exact h.ahead wakeup old
    · obtain ⟨t, task, rfl⟩ := List.mem_map.mp new
      obtain ⟨begun, forward⟩ := (orderly_ride _ _ _ _ _).1 t task
      exact Time.le_trans late (Time.le_trans begun forward)

end ScheduledFleet

namespace Session

variable {s s' : Session ScheduledFleet} {now : Time} {events : List ScheduledEvent}

lemma Step.watched (step : Step now s s') (h : s.fleet.Watched events now) :
    s'.fleet.Watched events now := by
  cases step with
  | sync => exact h
  | attempts => exact h
  | tally => exact h
  | note => exact h
  | opens => exact h
  | drops => exact h
  | commits _ _ outcome =>
    obtain ⟨_, _, _, _, _, committed⟩ := outcome_eq_ok outcome
    exact h.commit committed

lemma Steps.watched (steps : Steps now s s') (h : s.fleet.Watched events now) :
    s'.fleet.Watched events now := by
  induction steps with
  | refl => exact h
  | tail _ step ih => exact step.watched ih

end Session

/-! ## Simulations -/

namespace Simulation

variable {sim sim' : Simulation} {asked : Std.ExtTreeMap RequestId UpcomingRequest}
variable {e : ScheduledEvent} {events : List ScheduledEvent}

/-- Of the requests `asked` for, each has still to come in or has come in, and for whatever the
simulation waits there is one of the events. -/
structure Attended (asked : Std.ExtTreeMap RequestId UpcomingRequest) (sim : Simulation)
    (events : List ScheduledEvent) : Prop where
  orderly : sim.fleet.Orderly
  noticed : sim.fleet.wakeups = []
  ends : ∀ v x, sim.fleet.vehicle? v = some x → ∀ t ∈ x.tasks, Wakes events v t.endTime
  cycles : sim.dispatcher.hasPendingWork = true → ∃ e ∈ events, e.kind = .dispatchCycle
  comes : ∀ id, sim.upcoming.contains id = true →
    ∃ e ∈ events, e.kind = .requestSubmitted ∧ e.request? = some id
  heard : ∀ id spec, asked[id]? = some spec → sim.upcoming[id]? = some spec ∨
    ∃ e ∈ sim.log.rides, e.stage = .submitted ∧ e.request = id ∧ e.passenger = spec.passenger

/-- Some event to come is a cycle after one has been ensured. -/
lemma cycle_of_ensureCycle : ∃ e ∈ sim.ensureCycle.clock.pending, e.kind = .dispatchCycle := by
  unfold ensureCycle
  split
  · rename_i pending
    obtain ⟨e, member, cycle⟩ := List.any_eq_true.mp pending
    exact ⟨e, member, of_decide_eq_true cycle⟩
  · exact ⟨_, Clock.mem_schedule.mpr (.inl rfl), rfl⟩

lemma pending_ensureCycle : sim.clock.pending ⊆ sim.ensureCycle.clock.pending := by
  unfold ensureCycle
  split
  · exact List.Subset.refl _
  · exact fun e member => Clock.mem_schedule.mpr (.inr member)

/-- Wakeups that do not lie in the past become events at their times. -/
lemma wakes_of_wakeups (wakeups : List (VehicleId × Time)) (clock : Clock)
    (ahead : ∀ wakeup ∈ wakeups, clock.now ≤ wakeup.2) :
    let clock' := wakeups.foldl (fun clock wakeup =>
      clock.schedule wakeup.2 .vehicleTaskEnded (some (.vehicle wakeup.1))) clock
    clock.pending ⊆ clock'.pending ∧
      ∀ wakeup ∈ wakeups, Wakes clock'.pending wakeup.1 wakeup.2 := by
  induction wakeups generalizing clock with
  | nil => exact ⟨List.Subset.refl _, List.forall_mem_nil _⟩
  | cons first rest ih =>
    obtain ⟨more, wakes⟩ := ih (clock.schedule first.2 .vehicleTaskEnded (some (.vehicle first.1)))
      fun wakeup member => ahead wakeup (List.mem_cons_of_mem _ member)
    refine ⟨fun e member => more (Clock.mem_schedule.mpr (.inr member)), ?_⟩
    intro wakeup member
    rcases List.mem_cons.mp member with rfl | member
    · refine ⟨_, more (Clock.mem_schedule.mpr (.inl rfl)), rfl, rfl, ?_⟩
      have late := ahead wakeup List.mem_cons_self
      apply Time.ext
      rw [Time.le_iff] at late
      rw [Time.toNat_max]
      omega
    · exact wakes wakeup member

namespace Attended

lemma mono {events' : List ScheduledEvent} (h : sim.Attended asked events) (more : events ⊆ events') :
    sim.Attended asked events' := by
  refine { h with ends := ?_, cycles := ?_, comes := ?_ }
  · intro v x found t member
    exact (h.ends v x found t member).mono more
  · intro work
    obtain ⟨e, member, cycle⟩ := h.cycles work
    exact ⟨e, more member, cycle⟩
  · intro id waits
    obtain ⟨e, member, same⟩ := h.comes id waits
    exact ⟨e, more member, same⟩

/-- A cycle is taken, and another one is to come if the dispatcher has work. -/
lemma takeCycle {events' : List ScheduledEvent} (h : sim.Attended asked (e :: events))
    (cycle : e.kind = .dispatchCycle) (more : events ⊆ events')
    (next : sim.dispatcher.hasPendingWork = true → ∃ e ∈ events', e.kind = .dispatchCycle) :
    sim.Attended asked events' := by
  refine { h with ends := ?_, cycles := next, comes := ?_ }
  · intro v x found t member
    obtain ⟨e', still, kind, same⟩ := h.ends v x found t member
    exact ⟨e', more (mem_of_other_kind still (by rw [cycle, kind]; decide)), kind, same⟩
  · intro id waits
    obtain ⟨e', still, kind, same⟩ := h.comes id waits
    exact ⟨e', more (mem_of_other_kind still (by rw [cycle, kind]; decide)), kind, same⟩

/-- Ensuring a cycle keeps the promise of one. -/
lemma ensureCycle (h : sim.Attended asked (e :: sim.clock.pending)) (promised : e.kind = .dispatchCycle) :
    sim.ensureCycle.Attended asked sim.ensureCycle.clock.pending := by
  have kept : sim.Attended asked sim.ensureCycle.clock.pending :=
    h.takeCycle promised sim.pending_ensureCycle fun _ => cycle_of_ensureCycle
  rw [ensureCycle_eq] at kept ⊢
  exact { kept with }

lemma scheduleExpiry (id : RequestId) (h : sim.Attended asked (e :: sim.clock.pending)) :
    (sim.scheduleExpiry id).Attended asked (e :: (sim.scheduleExpiry id).clock.pending) := by
  unfold Simulation.scheduleExpiry
  split
  · exact h
  · rename_i span _
    have more : sim.clock.pending ⊆
        (sim.clock.scheduleIn span .requestExpired (some (.request id))).pending :=
      fun e member => Clock.mem_schedule.mpr (.inr member)
    exact { h.mono (List.cons_subset_cons e more) with }

/-- Tasks of a vehicle end. -/
lemma endTasks {v : VehicleId} (h : sim.Attended asked (e :: events))
    (kind : e.kind = .vehicleTaskEnded) (own : e.vehicle? = some v) (now_ : e.time = sim.clock.now) :
    (sim.endTasks v).Attended asked events where
  orderly := h.orderly.advance
  noticed := by
    show (sim.fleet.advance v sim.clock.now).2.wakeups = []
    unfold ScheduledFleet.advance
    split
    · exact h.noticed
    · exact h.noticed
  ends := by
    intro w y found t member
    replace found : (sim.fleet.advance v sim.clock.now).2.vehicle? w = some y := found
    rw [ScheduledFleet.vehicle?_advance] at found
    split at found
    · rename_i same
      subst same
      obtain ⟨x, before, rfl⟩ := Option.map_eq_some_iff.mp found
      -- what is left ends later, so the event is not the one that has come
      obtain ⟨listed, on⟩ := (h.orderly v x before).mem_retire.mp member
      obtain ⟨e', still, kind', own', time⟩ := h.ends v x before t listed
      rcases List.mem_cons.mp still with rfl | still
      · rw [← time, now_, Time.le_iff] at on
        exact absurd (Nat.le_refl _) on
      · exact ⟨e', still, kind', own', time⟩
    · rename_i other
      obtain ⟨e', still, kind', own', time⟩ := h.ends w y found t member
      rcases List.mem_cons.mp still with rfl | still
      · rw [own] at own'
        exact absurd (Option.some.inj own') other
      · exact ⟨e', still, kind', own', time⟩
  cycles := by
    intro work
    obtain ⟨e', member, cycle⟩ := h.cycles work
    exact ⟨e', mem_of_other_kind member (by rw [kind, cycle]; decide), cycle⟩
  comes := by
    intro id waits
    obtain ⟨e', member, submits, own'⟩ := h.comes id waits
    exact ⟨e', mem_of_other_kind member (by rw [kind, submits]; decide), submits, own'⟩
  heard := by
    intro id spec listed
    refine (h.heard id spec listed).imp_right ?_
    rintro ⟨logged, member, same⟩
    refine ⟨logged, ?_, same⟩
    unfold Simulation.endTasks
    rw [Log.rides_recordRides]
    exact List.mem_append_left _ member

/-- An event is taken for which nothing waits. -/
lemma drop (h : sim.Attended asked (e :: events))
    (ends : e.kind = .vehicleTaskEnded → e.vehicle? = none)
    (cycles : e.kind ≠ .dispatchCycle)
    (comes : e.kind = .requestSubmitted → ∀ id, e.request? = some id → sim.upcoming.contains id = false) :
    sim.Attended asked events := by
  refine { h with ends := ?_, cycles := ?_, comes := ?_ }
  · intro v x found t member
    obtain ⟨e', still, kind, own, time⟩ := h.ends v x found t member
    rcases List.mem_cons.mp still with rfl | still
    · rw [ends kind] at own
      cases own
    · exact ⟨e', still, kind, own, time⟩
  · intro work
    obtain ⟨e', member, cycle⟩ := h.cycles work
    exact ⟨e', mem_of_other_kind member (by rwa [cycle]), cycle⟩
  · intro id waits
    obtain ⟨e', still, kind, own⟩ := h.comes id waits
    rcases List.mem_cons.mp still with rfl | still
    · rw [comes kind id own] at waits
      cases waits
    · exact ⟨e', still, kind, own⟩

/-- A request is given up. -/
lemma expire (h : sim.Attended asked events) (id : RequestId) :
    (sim.expire id).Attended asked events := by
  cases gone : sim.dispatcher.withdraw id sim.clock.now with
  | none => exact (expire_of_none gone).symm ▸ h
  | some w =>
    -- the request was queued, so a cycle is to come
    have work : sim.dispatcher.hasPendingWork = true := by
      obtain ⟨queued, _⟩ := Dispatcher.withdraw_inv gone
      have some_ : sim.dispatcher.state.queue.isEmpty = false := by
        apply Std.ExtTreeMap.isEmpty_eq_false_iff.mpr
        intro none_
        unfold RequestQueue.get? at queued
        rw [none_] at queued
        simp at queued
      unfold Dispatcher.hasPendingWork
      rw [some_]
      rfl
    rw [expire_of_some gone]
    refine { h with cycles := fun _ => h.cycles work, heard := ?_ }
    intro id' spec listed
    refine (h.heard id' spec listed).imp_right ?_
    rintro ⟨logged, member, same⟩
    refine ⟨logged, ?_, same⟩
    rw [Log.rides_recordRide, Log.rides_recordConfirmations]
    exact List.mem_append_left _ member

/-- A request comes in. -/
lemma submit {id : RequestId} (h : sim.Attended asked (e :: sim.clock.pending))
    (kind : e.kind = .requestSubmitted) (own : e.request? = some id) :
    (sim.submit id).Attended asked (sim.submit id).clock.pending := by
  unfold Simulation.submit
  cases found : sim.upcoming[id]? with
  | none =>
    refine h.drop (by rw [kind]; nofun) (by rw [kind]; decide) ?_
    intro _ id' own'
    rw [own] at own'
    rw [← Option.some.inj own', Table.contains_eq_isSome, found]
    rfl
  | some spec =>
    -- the cycle that will be ensured is promised here
    let cycle : ScheduledEvent := ⟨sim.clock.now, .dispatchCycle, none, 0⟩
    let taken : Simulation := { sim with
      upcoming := sim.upcoming.erase id
      dispatcher := sim.dispatcher.submit (.immediate id spec.passenger spec.origin spec.destination
        sim.clock.now sim.maxSearch)
      log := sim.log.recordRide ⟨sim.clock.now, .submitted, id, spec.passenger, none⟩ }
    have attended : taken.Attended asked (cycle :: taken.clock.pending) := by
      refine { h with ends := ?_, cycles := ?_, comes := ?_, heard := ?_ }
      · intro v x same t member
        obtain ⟨e', still, kind', rest⟩ := h.ends v x same t member
        have other := mem_of_other_kind still (by rw [kind, kind']; decide)
        exact ⟨e', List.mem_cons_of_mem _ other, kind', rest⟩
      · exact fun _ => ⟨cycle, List.mem_cons_self, rfl⟩
      · intro id' waits
        rw [Table.contains_erase, Bool.and_eq_true, Bool.not_eq_true', decide_eq_false_iff_not] at waits
        obtain ⟨e', still, kind', own'⟩ := h.comes id' waits.2
        rcases List.mem_cons.mp still with rfl | still
        · rw [own] at own'
          exact absurd (Option.some.inj own') waits.1
        · exact ⟨e', List.mem_cons_of_mem _ still, kind', own'⟩
      · intro id' spec' listed
        have rides : taken.log.rides = sim.log.rides ++
            [⟨sim.clock.now, .submitted, id, spec.passenger, none⟩] := Log.rides_recordRide
        rw [rides]
        rcases h.heard id' spec' listed with waits | ⟨logged, member, same⟩
        · by_cases same : id = id'
          · subst same
            rw [found] at waits
            rw [Option.some.inj waits]
            exact .inr ⟨_, List.mem_append_right _ List.mem_cons_self, rfl, rfl, rfl⟩
          · refine .inl ?_
            rw [Table.getElem?_erase, if_neg same]
            exact waits
        · exact .inr ⟨logged, List.mem_append_left _ member, same⟩
    exact (attended.scheduleExpiry id).ensureCycle rfl

/-- The wakeups that a fleet is waiting for become events to come. -/
lemma scheduleWakeups (watched : sim.fleet.Watched (e :: sim.clock.pending) sim.clock.now)
    (kind : e.kind = .dispatchCycle)
    (comes : ∀ id, sim.upcoming.contains id = true →
      ∃ e' ∈ e :: sim.clock.pending, e'.kind = .requestSubmitted ∧ e'.request? = some id)
    (heard : ∀ id spec, asked[id]? = some spec → sim.upcoming[id]? = some spec ∨
      ∃ e ∈ sim.log.rides, e.stage = .submitted ∧ e.request = id ∧ e.passenger = spec.passenger) :
    sim.scheduleWakeups.Attended asked (e :: sim.scheduleWakeups.clock.pending) := by
  obtain ⟨more, wakes⟩ := wakes_of_wakeups sim.fleet.wakeups sim.clock watched.ahead
  refine ⟨watched.orderly, rfl, ?_, fun _ => ⟨e, List.mem_cons_self, kind⟩, ?_, heard⟩
  · intro v x found t member
    rcases watched.ends v x found t member with old | new
    · exact old.mono (List.cons_subset_cons e more)
    · exact (wakes _ new).mono (List.subset_cons_self _ _)
  · intro id waits
    obtain ⟨e', member, same⟩ := comes id waits
    exact ⟨e', List.cons_subset_cons e more member, same⟩

/-- A cycle runs. -/
lemma runCycle (h : sim.Attended asked (e :: sim.clock.pending))
    (sound : sim.dispatcher.state.Sound) (kind : e.kind = .dispatchCycle) :
    sim.runCycle.Attended asked sim.runCycle.clock.pending := by
  let ctx : CycleContext := ⟨sim.clock.now, sim.router⟩
  let result := sim.dispatcher.runCycle ctx sim.fleet
  let served : Simulation := { sim with
    dispatcher := result.dispatcher
    fleet := result.fleet
    log := (scheduledEvents sim.clock.now result.report).foldl Log.recordRide
      (sim.log.recordConfirmations result.events)
    astray := sim.astray || result.astray }
  have before : sim.fleet.Watched (e :: sim.clock.pending) sim.clock.now :=
    ⟨h.orderly, fun v x found t member => .inl (h.ends v x found t member), by rw [h.noticed]; nofun⟩
  have steps : Session.Steps ctx.now (sim.dispatcher.begin ctx.now sim.fleet)
      (sim.dispatcher.pass ctx sim.fleet).session := Dispatcher.pass_steps sound
  have after : served.fleet.Watched (e :: sim.clock.pending) sim.clock.now :=
    Session.Steps.watched steps before
  have attended : served.scheduleWakeups.Attended asked (e :: served.scheduleWakeups.clock.pending) := by
    refine scheduleWakeups after kind h.comes ?_
    intro id spec listed
    refine (h.heard id spec listed).imp_right ?_
    rintro ⟨logged, member, same⟩
    refine ⟨logged, ?_, same⟩
    show logged ∈ Log.rides (List.foldl _ _ _)
    rw [Log.rides_recordRides, Log.rides_recordConfirmations]
    exact List.mem_append_left _ member
  show (if served.scheduleWakeups.dispatcher.hasPendingWork then served.scheduleWakeups.ensureCycle
    else served.scheduleWakeups).Attended asked (if served.scheduleWakeups.dispatcher.hasPendingWork then
      served.scheduleWakeups.ensureCycle else served.scheduleWakeups).clock.pending
  split
  · exact attended.ensureCycle kind
  · rename_i nothing
    exact attended.takeCycle kind (List.Subset.refl _) fun work => absurd work nothing

/-- Each event that happens leaves the simulation attended by those to come. -/
lemma handle (h : sim.Attended asked (e :: sim.clock.pending)) (sound : sim.dispatcher.state.Sound)
    (now_ : e.time = sim.clock.now) :
    (sim.handle e).Attended asked (sim.handle e).clock.pending := by
  have happens := sim.happens e
  generalize sim.handle e = next at happens ⊢
  cases happens with
  | tasksEnd kind own => exact h.endTasks kind own now_
  | @expires id kind =>
    rw [clock_expire]
    refine Attended.expire ?_ id
    exact h.drop (by rw [kind]; nofun) (by rw [kind]; decide) (by rw [kind]; nofun)
  | cycle kind => exact h.runCycle sound kind
  | comesIn kind own => exact h.submit kind own
  | nothing other vehicle request =>
    refine h.drop vehicle other ?_
    intro kind id own
    rw [request (by rw [kind]; decide)] at own
    cases own

/-- Each step leaves the simulation attended. -/
lemma step? (h : sim.Attended asked sim.clock.pending) (sound : sim.dispatcher.state.Sound)
    (step : sim.step? = some (e, sim')) : sim'.Attended asked sim'.clock.pending := by
  obtain ⟨rest, pending, _, rfl⟩ := step?_eq_some step
  rw [pending] at h
  have taken : (sim.taking e rest).Attended asked (e :: rest) := { h with }
  exact taken.handle sound rfl

/-- Once no event is to come the dispatcher has no work, no vehicle has a task, and every request has come
in. -/
lemma quiet (h : sim.Attended asked []) : sim.dispatcher.hasPendingWork = false ∧
    (∀ v x, sim.fleet.vehicle? v = some x → x.tasks = []) ∧
    ∀ id spec, asked[id]? = some spec →
      ∃ e ∈ sim.log.rides, e.stage = .submitted ∧ e.request = id ∧ e.passenger = spec.passenger := by
  refine ⟨?_, ?_, ?_⟩
  · rw [← Bool.not_eq_true]
    intro work
    obtain ⟨_, member, _⟩ := h.cycles work
    cases member
  · intro v x found
    apply List.eq_nil_iff_forall_not_mem.mpr
    intro t member
    obtain ⟨_, member, _⟩ := h.ends v x found t member
    cases member
  · intro id spec listed
    refine (h.heard id spec listed).resolve_left ?_
    intro waits
    have coming : sim.upcoming.contains id = true := by
      rw [Table.contains_eq_isSome, waits]
      rfl
    obtain ⟨_, member, _⟩ := h.comes id coming
    cases member

end Attended

/-- Whatever steps are taken, the simulation stays attended. -/
lemma Reaches.attended {l : Ledger} (reached : sim.Reaches sim') (chronicle : sim.Chronicle l)
    (h : sim.Attended asked sim.clock.pending) : sim'.Attended asked sim'.clock.pending := by
  induction reached with
  | refl => exact h
  | tail before step ih =>
    obtain ⟨e, step⟩ := step
    obtain ⟨⟨_, chronicle⟩, _⟩ := Reaches.chronicle before chronicle
    exact ih.step? chronicle.balanced.sound step

end Simulation

/-! ## The beginning -/

namespace Scenario

variable {network : Network} {vehicles : List VehicleSpec} {passengers : List PassengerSpec}
variable {params : ScenarioParams} {sim : Simulation}

/-- A fleet whose vehicles have never had anything to do. -/
structure Unused (fleet : ScheduledFleet) : Prop where
  noticed : fleet.wakeups = []
  free : ∀ v x, fleet.vehicle? v = some x → x.tasks = []

lemma unused_of_addVehicle {fleet fleet' : ScheduledFleet} {spec : VehicleSpec} (h : Unused fleet)
    (added : addVehicle network fleet spec = .ok fleet') : Unused fleet' := by
  obtain ⟨place, _, added⟩ := bind_eq_ok added
  split at added
  · rename_i joined
    cases added
    obtain ⟨_, rfl⟩ := ScheduledFleet.addVehicle_eq_ok joined
    refine ⟨h.noticed, ?_⟩
    intro v x found
    rw [ScheduledFleet.vehicle?_insert _ fleet.wakeups] at found
    split at found
    · cases found
      rfl
    · exact h.free v x found
  · cases added

/-- The demand of some passengers: each has the request of their number, unless a later one has the same
number, and each request is to be submitted. -/
structure Demand.Of (entries : List (PassengerSpec × Nat)) (demand : Demand) : Prop where
  comes : ∀ id, demand.upcoming.contains id = true →
    ∃ e ∈ demand.clock.pending, e.kind = .requestSubmitted ∧ e.request? = some id
  asked : ∀ entry ∈ entries, ∃ entry' ∈ entries, ∃ spec,
    demand.upcoming[(⟨entry.2.toUInt64⟩ : RequestId)]? = some spec ∧
      entry'.2.toUInt64 = entry.2.toUInt64 ∧ spec.passenger = entry'.1.id

lemma Demand.Of.addPassenger {entries : List (PassengerSpec × Nat)} {demand demand' : Demand}
    {entry : PassengerSpec × Nat} (h : demand.Of entries)
    (added : addPassenger network demand entry = .ok demand') : demand'.Of (entries ++ [entry]) := by
  obtain ⟨origin, _, added⟩ := bind_eq_ok added
  obtain ⟨destination, _, added⟩ := bind_eq_ok added
  cases added
  constructor
  case comes =>
    intro id waits
    rw [Table.contains_insert, Bool.or_eq_true, decide_eq_true_iff] at waits
    rcases waits with rfl | waits
    · exact ⟨_, Clock.mem_schedule.mpr (.inl rfl), rfl, rfl⟩
    · obtain ⟨e, member, same⟩ := h.comes id waits
      exact ⟨e, Clock.mem_schedule.mpr (.inr member), same⟩
  case asked =>
    intro old member
    rw [Table.getElem?_insert]
    split
    · rename_i same
      exact ⟨entry, List.mem_append_right _ List.mem_cons_self, _, rfl, congrArg Id.val same, rfl⟩
    · rename_i other
      rcases List.mem_append.mp member with before | last
      · obtain ⟨entry', member', spec, rest⟩ := h.asked old before
        exact ⟨entry', List.mem_append_left _ member', spec, rest⟩
      · rw [List.mem_singleton.mp last] at other
        exact absurd rfl other

/-- Every passenger of a scenario has a request to come, which is theirs as long as the numbers of requests
do not run out. -/
lemma asked_of_build (built : build network vehicles passengers params = .ok sim) {number : Nat}
    {spec : PassengerSpec} (listed : passengers[number]? = some spec) :
    ∃ asked, sim.upcoming[(⟨number.toUInt64⟩ : RequestId)]? = some asked ∧
      (passengers.length ≤ UInt64.size → asked.passenger = spec.id) := by
  obtain ⟨_, _, demand, _, asked, rfl⟩ := build_eq_ok built
  have of : demand.Of passengers.zipIdx :=
    foldlM_builds (P := fun entries demand => Demand.Of entries demand)
      (fun _ _ _ _ before added => before.addPassenger added) ⟨by simp, List.forall_mem_nil _⟩ asked
  have entry : (spec, number) ∈ passengers.zipIdx :=
    List.mk_mem_zipIdx_iff_getElem?.mpr listed
  obtain ⟨⟨spec', number'⟩, member, asked, found, same, own⟩ := of.asked _ entry
  refine ⟨asked, found, ?_⟩
  intro few
  have listed' := List.mk_mem_zipIdx_iff_getElem?.mp member
  -- numbers of requests are words, and these are small
  have bound := (List.getElem?_eq_some_iff.mp listed).1
  have bound' := (List.getElem?_eq_some_iff.mp listed').1
  have numbers := congrArg UInt64.toNat same
  rw [show number'.toUInt64.toNat = number' from UInt64.toNat_ofNat_of_lt (by omega),
    show number.toUInt64.toNat = number from UInt64.toNat_ofNat_of_lt (by omega)] at numbers
  subst numbers
  rw [listed] at listed'
  rw [own, Option.some.inj listed']

/-- The simulation of a scenario begins attended. -/
lemma attended_of_build (built : build network vehicles passengers params = .ok sim) :
    sim.scheduleFirstCycle.Attended sim.upcoming sim.scheduleFirstCycle.clock.pending := by
  obtain ⟨_, fleet, demand, manned, asked, rfl⟩ := build_eq_ok built
  have unused : Unused fleet := by
    refine foldlM_keeps (P := Unused) (fun _ _ _ => unused_of_addVehicle) ⟨rfl, ?_⟩ manned
    intro v x found
    simp [ScheduledFleet.empty, ScheduledFleet.vehicle?] at found
  have of : demand.Of passengers.zipIdx :=
    foldlM_builds (P := fun entries demand => Demand.Of entries demand)
      (fun _ _ _ _ before added => before.addPassenger added) ⟨by simp, List.forall_mem_nil _⟩ asked
  constructor
  case orderly =>
    intro v x found
    have free := unused.free v x found
    exact ⟨by rw [free]; exact List.forall_mem_nil _, by rw [free]; exact .nil⟩
  case noticed => exact unused.noticed
  case ends =>
    intro v x found t member
    rw [unused.free v x found] at member
    cases member
  case cycles => exact fun _ => ⟨_, Clock.mem_schedule.mpr (.inl rfl), rfl⟩
  case comes =>
    intro id waits
    obtain ⟨e, member, same⟩ := of.comes id waits
    exact ⟨e, Clock.mem_schedule.mpr (.inr member), same⟩
  case heard => exact fun _ _ => .inl

variable {start : Simulation}

/-! A simulation begins as it has been built, or with a first cycle to come. -/

lemma ordered_of_start (built : build network vehicles passengers params = .ok sim)
    (started : start = sim ∨ start = sim.scheduleFirstCycle) :
    start.clock.now = 0 ∧ start.clock.Ordered := by
  obtain ⟨now_, ordered, _⟩ := clock_of_build built
  rcases started with rfl | rfl
  · exact ⟨now_, ordered⟩
  · exact ⟨now_, ordered.schedule⟩

lemma chronicle_of_start (built : build network vehicles passengers params = .ok sim)
    (started : start = sim ∨ start = sim.scheduleFirstCycle) : start.Chronicle {} := by
  obtain ⟨chronicle, _⟩ := chronicle_build built
  rcases started with rfl | rfl
  · exact chronicle.withClock start.clock fun e member _ => Clock.mem_schedule.mpr (.inr member)
  · exact chronicle

lemma attended_of_start (built : build network vehicles passengers params = .ok sim)
    (started : start = sim ∨ start = sim.scheduleFirstCycle) :
    start.Attended sim.upcoming start.clock.pending := by
  have attended := attended_of_build built
  rcases started with rfl | rfl
  · -- the first cycle may be left out, because the dispatcher has no work yet
    have idle : start.dispatcher.hasPendingWork = false := by
      obtain ⟨_, _, _, _, _, rfl⟩ := build_eq_ok built
      rfl
    have more : start.scheduleFirstCycle.clock.pending ⊆
        ⟨max 0 start.clock.now, .dispatchCycle, none, start.clock.issued⟩ :: start.clock.pending :=
      fun e member => List.mem_cons.mpr (Clock.mem_schedule.mp member)
    have without : start.scheduleFirstCycle.Attended start.upcoming start.clock.pending := by
      refine (attended.mono more).takeCycle rfl (List.Subset.refl _) ?_
      intro work
      rw [show start.scheduleFirstCycle.dispatcher.hasPendingWork = false from idle] at work
      cases work
    exact { without with }
  · exact attended

end Scenario

/-! ## The end -/

/-- What has been logged about a request is complete: it has been rejected, or its passenger has been
dropped off. -/
def Settled (events : List RideEvent) : Prop :=
  events.map RideEvent.stage = [.submitted, .rejected] ∨
    events.map RideEvent.stage = [.submitted, .scheduled, .pickedUp, .droppedOff]

/-- A story that has begun is complete once its request is not queued and no vehicle has anything left to
do. -/
lemma Story.settled {maxSearch : Option Time} {l : Ledger} {id : RequestId} {events : List RideEvent}
    {state : DispatchState} {fleet : ScheduledFleet} (story : Story maxSearch l id events)
    (h : l.Balanced state fleet) (once : (l.submitted.map Request.id).Nodup) (begun : events ≠ [])
    (queue : state.queue.contains id = false) (done : ∀ v, fleet.duties v = []) : Settled events := by
  cases story with
  | unheard => exact absurd rfl begun
  | waiting submitted own kept free =>
    -- a request that was submitted is somewhere
    have placed := h.conserved id
    have here := List.count_pos_iff.mpr (List.mem_map_of_mem (f := Request.id) submitted)
    have away : (l.rides.map CommittedRide.request).count id = 0 := by
      apply List.count_eq_zero.mpr
      intro member
      obtain ⟨ride, member, same⟩ := List.mem_map.mp member
      exact free ride member same
    rw [own] at here
    unfold Ledger.places at placed
    rw [queue, Bool.toNat_false, List.count_eq_zero.mpr kept, away] at placed
    omega
  | rejected => exact .inl rfl
  | @scheduled _ ride _ _ _ member ownRide =>
    subst ownRide
    have all := h.retired_append (h.nodup_rides once) member
    rw [done, List.filter_nil, List.append_nil] at all
    refine .inr ?_
    rw [List.map_cons, List.map_cons, stages_filterMap_rideEvent?, all]
    rfl

/-- A dispatcher without work has queued no request and registered no confirmation. -/
lemma Dispatcher.empty_of_idle {d : Dispatcher} (idle : d.hasPendingWork = false) :
    d.state.queue.requests = ∅ ∧ d.state.registry.confirmations = ∅ := by
  unfold hasPendingWork at idle
  rw [Bool.or_eq_false_iff, Bool.not_eq_false', Bool.not_eq_false'] at idle
  exact ⟨Std.ExtTreeMap.isEmpty_iff.mp idle.1, Std.ExtTreeMap.isEmpty_iff.mp idle.2⟩

variable {network : Network} {vehicles : List VehicleSpec} {passengers : List PassengerSpec}
variable {params : ScenarioParams} {sim sim' : Simulation}

/-- Whatever the scenario, once no event is to come every passenger's request has been submitted and has
been rejected or ended with the drop-off; no request is queued, no confirmation is registered, and no
vehicle has a task that is not retired. -/
theorem Simulation.settled_of_nothing_pending
    (built : Scenario.build network vehicles passengers params = .ok sim)
    (reached : sim.scheduleFirstCycle.Reaches sim') (quiet : sim'.clock.pending = []) :
    (∀ (number : Nat) (spec : PassengerSpec), passengers[number]? = some spec →
      Settled (sim'.told ⟨number.toUInt64⟩) ∧ (passengers.length ≤ UInt64.size →
        ∀ e ∈ sim'.told ⟨number.toUInt64⟩, e.passenger = spec.id)) ∧
      sim'.dispatcher.state.queue.toList = [] ∧ sim'.dispatcher.state.registry.toList = [] ∧
      ∀ v x, sim'.fleet.vehicle? v = some x → x.tasks = [] := by
  obtain ⟨chronicle, _⟩ := Scenario.chronicle_build built
  have attended := reached.attended chronicle (Scenario.attended_of_build built)
  obtain ⟨⟨l, chronicle⟩, _⟩ := reached.chronicle chronicle
  rw [quiet] at attended
  obtain ⟨idle, free, heard⟩ := attended.quiet
  obtain ⟨queue, registry⟩ := Dispatcher.empty_of_idle idle
  have done : ∀ v, sim'.fleet.duties v = [] := by
    intro v
    unfold ScheduledFleet.duties
    split
    · rename_i x found
      rw [free v x found]
      rfl
    · rfl
  refine ⟨?_, ?_, ?_, free⟩
  · intro number spec listed
    obtain ⟨asked, found, own⟩ := Scenario.asked_of_build built listed
    obtain ⟨logged, member, _, request, passenger⟩ := heard _ asked found
    have listed : logged ∈ sim'.told ⟨number.toUInt64⟩ :=
      List.mem_filter.mpr ⟨member, decide_eq_true request⟩
    have story := chronicle.stories ⟨number.toUInt64⟩
    refine ⟨?_, ?_⟩
    · refine story.settled chronicle.balanced chronicle.once (List.ne_nil_of_mem listed) ?_ done
      unfold RequestQueue.contains
      rw [queue]
      simp
    · intro few e member
      obtain ⟨same, all⟩ := (story.isLifecycle chronicle.balanced
        (chronicle.balanced.nodup_rides chronicle.once) chronicle.searches).passenger
      rw [all e member, ← all logged listed, passenger, own few]
  · unfold RequestQueue.toList
    rw [queue, Table.values_eq_map_toList]
    simp
  · unfold Registry.toList
    rw [registry, Table.values_eq_map_toList]
    simp

/-- The small town comes to rest after fifteen events, when the first passenger has been driven and the second one
rejected; a town without vehicles in which nobody asks for a ride comes to rest after its first cycle. -/
theorem Simulation.settled_smallTown :
    (SmallTown.network.Finite → ∃ sim sim',
      Scenario.build SmallTown.network SmallTown.vehicles SmallTown.passengers SmallTown.params = .ok sim ∧
        sim.scheduleFirstCycle.Reaches sim' ∧ sim'.clock.pending = [] ∧
        (Settled (sim'.told ⟨0⟩) ∧ ∀ e ∈ sim'.told ⟨0⟩, e.passenger = ⟨1⟩) ∧
        (Settled (sim'.told ⟨1⟩) ∧ ∀ e ∈ sim'.told ⟨1⟩, e.passenger = ⟨2⟩) ∧
        ((sim'.told ⟨0⟩).length = 4 ∧ (sim'.told ⟨1⟩).length = 2) ∧
        sim'.dispatcher.state.queue.toList = [] ∧ sim'.dispatcher.state.registry.toList = [] ∧
        (sim'.fleet.vehicle? ⟨1⟩).isSome ∧ ∀ v x, sim'.fleet.vehicle? v = some x → x.tasks = []) ∧
      ∃ sim e sim', Scenario.build (Network.grid 2 2 {}) [] [] { maxSearchSecs := some 600 } = .ok sim ∧
        sim.scheduleFirstCycle.step? = some (e, sim') ∧ sim'.clock.pending = [] ∧
        sim'.dispatcher.state.queue.toList = [] ∧ sim'.dispatcher.state.registry.toList = [] := by
  constructor
  · intro finite
    have built := SmallTown.build_eq finite
    have reached := SmallTown.reaches_after 15
    have quiet : (SmallTown.after 15).clock.pending = [] := by decide +kernel
    have few : SmallTown.passengers.length ≤ UInt64.size := by decide
    obtain ⟨all, queue, registry, free⟩ := Simulation.settled_of_nothing_pending built reached quiet
    obtain ⟨driven, first⟩ := all 0 _ rfl
    obtain ⟨rejected, second⟩ := all 1 _ rfl
    exact ⟨_, _, built, reached, quiet, ⟨driven, first few⟩, ⟨rejected, second few⟩, by decide +kernel, queue, registry,
      by decide +kernel, free⟩
  · have built : Scenario.build (Network.grid 2 2 {}) [] [] { maxSearchSecs := some 600 } = .ok _ := rfl
    refine ⟨_, _, _, built, rfl, rfl, ?_⟩
    obtain ⟨_, queue, registry, _⟩ := Simulation.settled_of_nothing_pending built (.single ⟨_, rfl⟩) rfl
    exact ⟨queue, registry⟩

end RideDispatch

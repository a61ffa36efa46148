import RideDispatch.Proofs.Duty
import RideDispatch.Proofs.InPlace
import RideDispatch.Proofs.Moves
import RideDispatch.Proofs.Schedule
import RideDispatch.Proofs.Service
import RideDispatch.Proofs.Tidy

/-!
# All or nothing

A confirmation is consumed in many small changes, to the registry, to the fleet, to the queue and to the
index of zones, and there are five reasons for which there may be no ride, the last of them found out by the
fleet. `Session.all_or_nothing` says that for any session with a consistent registry the procedure
`Session.consumeInPlace` ends in one of two ways. The confirmation is closed in both of them; either there is
a whole ride (`Session.Rides`) or nothing else has changed (`Session.Forgoes`). Asking a driver in place
(`Session.openInPlace`) changes nothing at all where it fails.
-/

namespace RideDispatch

/-- A zone map has lost one key, if it had it, and nothing else. -/
structure ZoneMap.Loses {κ : Type} [Ord κ] [Std.TransOrd κ] [DecidableEq κ] (m m' : ZoneMap κ) (key : κ) :
    Prop where
  resolution : m'.resolution = m.resolution
  members : ∀ k, m'.members[k]? = if key = k then none else m.members[k]?
  tidy : m.Tidy → m'.Tidy

lemma ZoneMap.loses_erase {κ : Type} [Ord κ] [Std.TransOrd κ] [DecidableEq κ] [Std.LawfulEqOrd κ]
    (m : ZoneMap κ) (key : κ) : m.Loses (m.erase key) key where
  resolution := resolution_erase
  members _ := members_erase
  tidy h := h.erase key

/-- Tasks have been appended to those of one vehicle, their ends to the wakeups, and nothing else has
changed. -/
structure ScheduledFleet.Gains (f f' : ScheduledFleet) (id : VehicleId) (tasks : List Task) : Prop where
  vehicle : ∃ x, f.vehicle? id = some x ∧ f'.vehicle? id = some { x with tasks := x.tasks ++ tasks }
  others : ∀ v, v ≠ id → f'.vehicle? v = f.vehicle? v
  wakeups : f'.wakeups = f.wakeups ++ tasks.map fun task => (id, task.endTime)
  router : f'.router = f.router
  pickupDuration : f'.pickupDuration = f.pickupDuration
  dropoffDuration : f'.dropoffDuration = f.dropoffDuration

/-- A commitment gives a vehicle the four tasks of a ride. -/
lemma ScheduledFleet.gains_commit {f f' : ScheduledFleet} {id : VehicleId} {request : Request}
    {pickup : Route} {now : Time} (h : f.commit id request pickup now = .ok f') :
    ∃ tasks : List Task, tasks.map Task.kind = TaskKind.all ∧ f.Gains f' id tasks := by
  obtain ⟨x, occupied, start, found, _, _, _, rfl⟩ := commit_eq_ok h
  refine ⟨f.ride request pickup occupied start, rfl, ⟨x, found, ?_⟩, ?_, rfl, rfl, rfl, rfl⟩
  · rw [vehicle?_insert, if_pos rfl]
  · intro v other
    rw [vehicle?_insert, if_neg other.symm]

namespace Session

variable {s s' : Session ScheduledFleet} {now : Time} {c : Confirmation}

/-- One confirmation has been removed from the registry, and one event tells of it. -/
structure Closes (now : Time) (c : Confirmation) (s s' : Session ScheduledFleet) : Prop where
  consistent : s'.state.registry.Consistent
  holds : ∀ c', s'.state.registry.Holds c' ↔ s.state.registry.Holds c' ∧ c' ≠ c
  nextId : s'.state.registry.nextId = s.state.registry.nextId
  delay : s'.state.registry.delay = s.state.registry.delay
  events : s'.events = s.events ++ [c.completedEvent now]

/-- The vehicle of a confirmation has got the four tasks of a ride. The request is no longer queued, and
neither it nor the vehicle is indexed. -/
structure Rides (c : Confirmation) (s s' : Session ScheduledFleet) : Prop where
  fleet : ∃ tasks : List Task, tasks.length = 4 ∧ tasks.map Task.kind = TaskKind.all ∧
    s.fleet.Gains s'.fleet c.vehicle tasks
  queue : ∀ id, s'.state.queue.get? id = if c.request = id then none else s.state.queue.get? id
  requests : s.state.zones.requests.Loses s'.state.zones.requests c.request
  vehicles : s.state.zones.vehicles.Loses s'.state.zones.vehicles c.vehicle
  report : s'.report =
    { s.report with committed := s.report.committed ++ [⟨c.request, c.passenger, c.vehicle⟩] }

/-- There is no ride: fleet, queue and index are as they were. -/
structure Forgoes (c : Confirmation) (reason : DropReason) (s s' : Session ScheduledFleet) : Prop where
  fleet : s'.fleet = s.fleet
  queue : s'.state.queue = s.state.queue
  zones : s'.state.zones = s.state.zones
  report : s'.report = { s.report with dropped := s.report.dropped ++ [(c.request, reason)] }

/-- Whatever comes of a confirmation, it is closed. -/
lemma closes_consume (consistent : s.state.registry.Consistent) (held : s.state.registry.Holds c) :
    Closes now c s (s.consume now c.id).2 := by
  have registry : (s.consume now c.id).2.state.registry = s.state.registry.unregister c :=
    consume_registry held
  constructor
  · rw [registry]
    exact consistent.unregister held
  · intro c'
    rw [registry, Registry.holds_unregister held]
  · rw [registry]
    rfl
  · rw [registry]
    rfl
  · exact consume_events held

lemma rides_of_ok {fleet : ScheduledFleet} (outcome : s.outcome now c = .ok fleet) :
    Rides c s ((s.close now c).commitRide c fleet) := by
  obtain ⟨_, _, request, _, _, committed⟩ := outcome_eq_ok outcome
  obtain ⟨tasks, kinds, gains⟩ := ScheduledFleet.gains_commit committed
  have four : tasks.length = 4 := by
    rw [← List.length_map Task.kind, kinds]
    rfl
  exact {
    fleet := ⟨tasks, four, kinds, gains⟩
    queue := fun _ => RequestQueue.get?_erase
    requests := ZoneMap.loses_erase _ _
    vehicles := ZoneMap.loses_erase _ _
    report := rfl }

/-- For any session whose registry is consistent, and any moment: consuming a registered confirmation in
place closes it and nothing else, and it either gives its vehicle a whole ride or leaves fleet, queue and
index alone. Asking a driver in place leaves everything alone if it fails. -/
theorem all_or_nothing (s : Session ScheduledFleet) (now : Time) (consistent : s.state.registry.Consistent) :
    (∀ id c, s.state.registry.get? id = some c →
      ∃ placement s', (consumeInPlace now id : EStateM DispatchError _ _).run s = .ok placement s' ∧
        s.consume now id = (placement, s') ∧ c.id = id ∧ Closes now c s s' ∧
        (placement = .committed ∧ Rides c s s' ∨
          ∃ reason, placement = .dropped reason ∧ Forgoes c reason s s')) ∧
    (∀ p e s', (openInPlace now p).run s = .error e s' → s.openConfirmation now p = .error e ∧ s' = s) := by
  constructor
  · intro id c found
    obtain rfl := consistent.id_eq found
    have held : s.state.registry.Holds c := found
    refine ⟨_, _, consume_run now fun _ => consistent.id_eq, rfl, rfl, closes_consume consistent held, ?_⟩
    cases outcome : s.outcome now c with
    | ok fleet =>
      rw [consume_of_ok held outcome]
      exact .inl ⟨rfl, rides_of_ok outcome⟩
    | error refusal =>
      rw [consume_of_error held outcome]
      exact .inr ⟨refusal.reason, rfl, rfl, rfl, rfl, rfl⟩
  · intro p e s' failed
    rw [open_run] at failed
    cases opened : s.openConfirmation now p with
    | ok result =>
      rw [opened] at failed
      cases failed
    | error e' =>
      rw [opened] at failed
      cases failed
      exact ⟨rfl, rfl⟩

/-- A request. -/
def askedRide : Request := .immediate ⟨1⟩ ⟨11⟩ (.onDiagonal 2) (.onDiagonal 3) 0 none

/-- A session in which the driver of a vehicle has accepted the ride of a request. -/
def acceptedRide (resolution : Resolution) : Session ScheduledFleet where
  state := {
    queue := RequestQueue.empty.insert askedRide
    registry :=
      let registry := Registry.empty 0
      registry.register (registry.newConfirmation askedRide ⟨7⟩ ⟨0, ⟨1000⟩, 0, []⟩ 0)
    zones := ((Zones.empty resolution).addRequest ⟨1⟩ (.onDiagonal 2)).addVehicle ⟨7⟩ (.onDiagonal 1) }
  fleet := { ScheduledFleet.empty Service.steadyRouter ⟨120⟩ ⟨60⟩ with
    vehicles := Std.ExtTreeMap.empty.insert ⟨7⟩ ⟨⟨7⟩, 0, .never, .onDiagonal 1, []⟩ }
  events := []
  report := { now := 0, strategy := "" }
  astray := false

/-- There the request and the vehicle get their ride, and the driver of another vehicle cannot be asked for
the request as well. -/
theorem all_or_nothing_acceptedRide :
    let s := acceptedRide 9
    let p : Pairing := ⟨⟨8⟩, ⟨1⟩, 0, ⟨1000⟩, 0, []⟩
    s.state.registry.Consistent ∧
    (∃ c s', s.state.registry.get? ⟨0⟩ = some c ∧
      (consumeInPlace 0 ⟨0⟩ : EStateM DispatchError _ _).run s = .ok .committed s' ∧
      Closes 0 c s s' ∧ Rides c s s') ∧
    ∃ s', (openInPlace 0 p).run s = .error (.requestAlreadyPending ⟨1⟩) s' ∧ s' = s := by
  intro s p
  have admits : (Registry.empty 0).Admits
      ((Registry.empty 0).newConfirmation askedRide ⟨7⟩ ⟨0, ⟨1000⟩, 0, []⟩ 0) :=
    ⟨rfl, rfl, by decide +kernel, by decide +kernel⟩
  have consistent : s.state.registry.Consistent := ((Registry.Sound.empty 0).register admits).consistent
  obtain ⟨consumed, unopened⟩ := all_or_nothing s 0 consistent
  have found : (s.state.registry.get? ⟨0⟩).isSome = true := by decide +kernel
  obtain ⟨c, found⟩ := Option.isSome_iff_exists.mp found
  obtain ⟨placement, s', ran, same, _, closes, ends⟩ := consumed _ c found
  have committed : placement = .committed := by
    refine (congrArg Prod.fst same).symm.trans ?_
    decide +kernel
  subst committed
  have failed : (openInPlace 0 p).run s = .error (.requestAlreadyPending ⟨1⟩) s := by
    have queued : s.state.queue.get? p.request = some askedRide := RequestQueue.get?_insert
    have waiting : s.state.registry.isWaitingRequest askedRide.id = true := by decide +kernel
    rw [open_run]
    unfold openConfirmation Registry.add
    rw [queued]
    simp only [waiting, if_true]
    rfl
  refine ⟨consistent, ⟨c, s', found, ran, closes, ?_⟩, _, failed, (unopened p _ _ failed).2⟩
  cases ends with
  | inl rides => exact rides.2
  | inr dropped => cases dropped.choose_spec.1

end Session

end RideDispatch

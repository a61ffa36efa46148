import RideDispatch.Dispatch.Report
import RideDispatch.Fleet.Schedule
import RideDispatch.Proofs.Table

/-!
# Duties

A `Duty` is what a task is about, without its times and places. `ScheduledFleet.duties` are those of the
tasks that a vehicle has still to do. A commitment appends the four duties of one ride to one vehicle
(`duties_commit`), and what `ScheduledFleet.advance` reports about a vehicle is what it takes from the
front (`duties_advance`).
-/

namespace RideDispatch

/-- What a task is about. -/
structure Duty where
  kind : TaskKind
  request : RequestId
  passenger : PassengerId
deriving DecidableEq, Repr

/-- What a task is about. -/
def Task.duty (t : Task) : Duty := ⟨t.kind, t.request, t.passenger⟩

/-- What a task that is over was about. -/
def TaskEnded.duty (t : TaskEnded) : Duty := ⟨t.kind, t.request, t.passenger⟩

/-- The duties of a ride: the empty drive, the pickup, the occupied drive and the drop-off. -/
def rideDuties (request : RequestId) (passenger : PassengerId) : List Duty :=
  TaskKind.all.map fun kind => ⟨kind, request, passenger⟩

/-- The duties of a committed ride. -/
def CommittedRide.duties (ride : CommittedRide) : List Duty := rideDuties ride.request ride.passenger

lemma request_of_mem_rideDuties {id : RequestId} {passenger : PassengerId} {d : Duty}
    (h : d ∈ rideDuties id passenger) : d.request = id := by
  obtain ⟨kind, _, rfl⟩ := List.mem_map.mp h
  rfl

namespace ScheduledFleet

variable {f f' : ScheduledFleet} {v id : VehicleId} {now : Time} {request : Request} {pickup : Route}

/-- Every vehicle is listed under its own identity. -/
def Keyed (f : ScheduledFleet) : Prop := ∀ id x, f.vehicle? id = some x → x.id = id

/-- The duties that a vehicle has still to do. -/
def duties (f : ScheduledFleet) (v : VehicleId) : List Duty :=
  match f.vehicle? v with
  | some x => x.tasks.map Task.duty
  | none => []

@[simp]
lemma vehicle?_empty (router : Router) (pickupDuration dropoffDuration : Time) (v : VehicleId) :
    (empty router pickupDuration dropoffDuration).vehicle? v = none :=
  Std.ExtTreeMap.getElem?_empty

lemma keyed_empty (router : Router) (pickupDuration dropoffDuration : Time) :
    (empty router pickupDuration dropoffDuration).Keyed := by
  intro v x found
  rw [vehicle?_empty] at found
  cases found

lemma nodup_vehicleIds (f : ScheduledFleet) : (Fleet.vehicleIds f).Nodup :=
  Std.ExtTreeMap.nodup_keys

lemma Keyed.insert (h : f.Keyed) {x : Vehicle} {wakeups : List (VehicleId × Time)} (own : x.id = id) :
    { f with vehicles := f.vehicles.insert id x, wakeups := wakeups }.Keyed := by
  intro v y found
  simp only [vehicle?, Table.getElem?_insert] at found
  split at found
  · rename_i same
    cases found
    exact own.trans same
  · exact h v y found

/-- Inversion for a commitment: when the ride starts, and the way on which it carries the passenger. -/
lemma commit_eq_ok (h : f.commit id request pickup now = .ok f') :
    ∃ x occupied start, f.vehicle? id = some x ∧
      start = max (max pickup.departure now) x.busyUntil ∧ start < x.serviceEnd ∧
      f.router.route? request.origin request.destination
        (start + pickup.travelTime + f.pickupDuration) = some occupied ∧
      f' = { f with
        vehicles := f.vehicles.insert id
          { x with tasks := x.tasks ++ f.ride request pickup occupied start }
        wakeups := f.wakeups ++
          (f.ride request pickup occupied start).map fun task => (id, task.endTime) } := by
  unfold commit at h
  split at h
  · cases h
  · rename_i x found
    simp only at h
    split at h
    · cases h
    · rename_i serves
      split at h
      · cases h
      · rename_i occupied way
        cases h
        exact ⟨x, occupied, _, found, rfl, Time.not_le.mp serves, way, rfl⟩

lemma Keyed.commit (h : f.Keyed) (committed : f.commit id request pickup now = .ok f') :
    f'.Keyed := by
  obtain ⟨x, _, _, found, _, _, _, rfl⟩ := commit_eq_ok committed
  exact h.insert (h id x found)

/-- A commitment appends the duties of a ride to those of its vehicle. -/
lemma duties_commit (h : f.commit id request pickup now = .ok f') :
    f'.duties v = f.duties v ++ if id = v then rideDuties request.id request.passenger else [] := by
  obtain ⟨x, occupied, start, found, _, _, _, rfl⟩ := commit_eq_ok h
  unfold duties
  simp only [vehicle?, Table.getElem?_insert]
  by_cases same : id = v
  · subst same
    rw [if_pos rfl, if_pos rfl, show f.vehicles[id]? = some x from found]
    simp only [List.map_append]
    rfl
  · rw [if_neg same, if_neg same, List.append_nil]

lemma Keyed.advance (h : f.Keyed) : (f.advance id now).2.Keyed := by
  unfold ScheduledFleet.advance
  split
  · exact h
  · rename_i x found
    exact h.insert (h id x found)

/-- All that an advance reports is about the vehicle that is advanced. -/
lemma Keyed.filter_advance (h : f.Keyed) (id v : VehicleId) (now : Time) :
    ((f.advance id now).1.filter fun t => t.vehicle = v) = if id = v then (f.advance id now).1 else [] := by
  unfold ScheduledFleet.advance
  cases found : f.vehicles[id]? with
  | none => exact (ite_self _).symm
  | some x =>
    have own : ∀ t ∈ (x.retire now).1, t.vehicle = id := by
      intro t member
      obtain ⟨task, _, rfl⟩ := List.mem_map.mp member
      exact h id x found
    by_cases same : id = v
    · rw [if_pos same, List.filter_eq_self]
      exact fun t member => decide_eq_true ((own t member).trans same)
    · rw [if_neg same, List.filter_eq_nil_iff]
      exact fun t member reported => same ((own t member).symm.trans (of_decide_eq_true reported))

/-- What is reported about a vehicle are the duties that it no longer has. -/
lemma duties_advance (id : VehicleId) (now : Time) (h : f.Keyed) :
    f.duties v = ((f.advance id now).1.filter fun t => t.vehicle = v).map TaskEnded.duty ++
      (f.advance id now).2.duties v := by
  rw [h.filter_advance]
  unfold advance
  cases found : f.vehicles[id]? with
  | none =>
    rw [ite_self]
    rfl
  | some x =>
    unfold duties
    simp only [vehicle?, Table.getElem?_insert, Vehicle.retire]
    by_cases same : id = v
    · subst same
      rw [found, if_pos rfl, if_pos rfl, List.map_map]
      rw [show TaskEnded.duty ∘ x.report = Task.duty from rfl, ← List.map_append,
        List.takeWhile_append_dropWhile]
    · rw [if_neg same, if_neg same]
      rfl

lemma addVehicle_eq_ok {place : Place} {serviceBegin serviceEnd : Time}
    (h : f.addVehicle id place serviceBegin serviceEnd = .ok f') :
    f.vehicle? id = none ∧
      f' = { f with vehicles := f.vehicles.insert id ⟨id, serviceBegin, serviceEnd, place, []⟩ } := by
  unfold addVehicle at h
  split at h
  · cases h
  · rename_i new
    cases h
    rw [Table.contains_eq_isSome, Option.not_isSome_iff_eq_none] at new
    exact ⟨new, rfl⟩

lemma Keyed.addVehicle (h : f.Keyed) {place : Place} {serviceBegin serviceEnd : Time}
    (added : f.addVehicle id place serviceBegin serviceEnd = .ok f') : f'.Keyed := by
  obtain ⟨_, rfl⟩ := addVehicle_eq_ok added
  exact h.insert rfl

/-- A new vehicle has nothing to do. -/
lemma duties_addVehicle {place : Place} {serviceBegin serviceEnd : Time}
    (h : f.addVehicle id place serviceBegin serviceEnd = .ok f') : f'.duties v = f.duties v := by
  obtain ⟨new, rfl⟩ := addVehicle_eq_ok h
  unfold duties
  simp only [vehicle?, Table.getElem?_insert]
  by_cases same : id = v
  · subst same
    rw [if_pos rfl, show f.vehicles[id]? = none from new]
    rfl
  · rw [if_neg same]

end ScheduledFleet

end RideDispatch

import RideDispatch.Fleet
import RideDispatch.Fleet.Vehicle

/-!
# Fleets with schedules

A `ScheduledFleet` keeps the tasks of each vehicle. Committing a vehicle to a request appends the
four tasks of the ride; `ScheduledFleet.advance` retires the tasks of a vehicle that are over. The
ends of new tasks are kept as wakeups until somebody takes them.
-/

namespace RideDispatch

/-- A vehicle of that identity belongs to the fleet already. -/
structure DuplicateVehicle where
  vehicle : VehicleId
deriving DecidableEq, Repr

/-- The wording of the fault. -/
def DuplicateVehicle.message (e : DuplicateVehicle) : String :=
  e.vehicle.render ++ " is defined twice"

/-- A fleet that keeps the tasks of its vehicles. -/
structure ScheduledFleet where
  vehicles : Std.ExtTreeMap VehicleId Vehicle
  /-- Finds the way from the pickup to the destination. -/
  router : Router
  pickupDuration : Time
  dropoffDuration : Time
  /-- The ends of tasks that nobody has taken notice of yet. -/
  wakeups : List (VehicleId × Time)

namespace ScheduledFleet

/-- A fleet without vehicles. -/
def empty (router : Router) (pickupDuration dropoffDuration : Time) : ScheduledFleet where
  vehicles := ∅
  router := router
  pickupDuration := pickupDuration
  dropoffDuration := dropoffDuration
  wakeups := []

/-- Adds a vehicle that stands at a place and serves for a span of time. -/
def addVehicle (f : ScheduledFleet) (id : VehicleId) (place : Place)
    (serviceBegin serviceEnd : Time) : Except DuplicateVehicle ScheduledFleet :=
  if f.vehicles.contains id then .error ⟨id⟩
  else .ok { f with vehicles := f.vehicles.insert id ⟨id, serviceBegin, serviceEnd, place, []⟩ }

/-- The vehicle of an identity. -/
def vehicle? (f : ScheduledFleet) (id : VehicleId) : Option Vehicle := f.vehicles[id]?

/-- The number of vehicles. -/
def size (f : ScheduledFleet) : Nat := f.vehicles.size

/-- Takes all wakeups. -/
def takeWakeups (f : ScheduledFleet) : List (VehicleId × Time) × ScheduledFleet :=
  (f.wakeups, { f with wakeups := [] })

/-- Retires the tasks of a vehicle that are over, and reports them. -/
def advance (f : ScheduledFleet) (id : VehicleId) (now : Time) :
    List TaskEnded × ScheduledFleet :=
  match f.vehicles[id]? with
  | none => ([], f)
  | some v =>
    let (ended, v) := v.retire now
    (ended, { f with vehicles := f.vehicles.insert id v })

/-- Whether a vehicle is moving. -/
def isDriving (f : ScheduledFleet) (id : VehicleId) (now : Time) : Bool :=
  match (f.vehicles[id]?).bind fun v => v.currentTask? now with
  | some task => task.kind.isDrive
  | none => false

/-- Whether a vehicle does not serve; an unknown vehicle never does. -/
def isOutOfService (f : ScheduledFleet) (id : VehicleId) (now : Time) : Bool :=
  match f.vehicles[id]? with
  | some v => v.isOutOfService now
  | none => true

/-- Whether a vehicle serves and has nothing left to do. -/
def isIdle (f : ScheduledFleet) (id : VehicleId) (now : Time) : Bool :=
  match f.vehicles[id]? with
  | some v => !v.isOutOfService now && v.isFree now
  | none => false

/-- Where and when a vehicle could take on something new, if it still serves then. -/
def earliestIdleness (f : ScheduledFleet) (id : VehicleId) (now : Time) : Option Idleness :=
  match f.vehicles[id]? with
  | some v =>
    if v.serviceEnd ≤ v.availableAt now then none else some ⟨v.finalPlace, v.availableAt now⟩
  | none => none

/-- The four tasks of a ride that starts at a moment, given the way to the pickup and the way to
the destination. -/
def ride (f : ScheduledFleet) (request : Request) (pickup occupied : Route) (start : Time) :
    List Task :=
  let atPickup := start + pickup.travelTime
  let pickedUp := atPickup + f.pickupDuration
  let atDropoff := pickedUp + occupied.travelTime
  let droppedOff := atDropoff + f.dropoffDuration
  [⟨.emptyDrive, start, atPickup, request.id, request.passenger, request.origin, pickup.links⟩,
    ⟨.pickup, atPickup, pickedUp, request.id, request.passenger, request.origin, []⟩,
    ⟨.occupiedDrive, pickedUp, atDropoff, request.id, request.passenger, request.destination,
      occupied.links⟩,
    ⟨.dropoff, atDropoff, droppedOff, request.id, request.passenger, request.destination, []⟩]

/-- Why there is no way from the pickup of a request to its destination. -/
def wayError (f : ScheduledFleet) (request : Request) : CommitError :=
  let (origin, target) := (request.origin, request.destination)
  if f.router.strays origin target then .strayed origin.link target.link
  else .noRoute origin.link target.link

/-- Commits a vehicle to a request. The drive to the pickup starts when it is planned to, but not
in the past and not before the vehicle is done with its other tasks. -/
def commit (f : ScheduledFleet) (id : VehicleId) (request : Request) (pickup : Route)
    (now : Time) : Except CommitError ScheduledFleet :=
  match f.vehicles[id]? with
  | none => .error (.unknownVehicle id)
  | some v =>
    let start := max (max pickup.departure now) v.busyUntil
    if v.serviceEnd ≤ start then .error (.serviceEnded id v.serviceEnd)
    else
      let pickedUp := start + pickup.travelTime + f.pickupDuration
      match f.router.route? request.origin request.destination pickedUp with
      | none => .error (f.wayError request)
      | some occupied =>
        let tasks := f.ride request pickup occupied start
        .ok { f with
          vehicles := f.vehicles.insert id { v with tasks := v.tasks ++ tasks }
          wakeups := f.wakeups ++ tasks.map fun task => (id, task.endTime) }

instance : Fleet ScheduledFleet where
  vehicleIds f := f.vehicles.keys
  isIdle := isIdle
  isOutOfService := isOutOfService
  earliestIdleness := earliestIdleness
  commit := commit

end ScheduledFleet

end RideDispatch

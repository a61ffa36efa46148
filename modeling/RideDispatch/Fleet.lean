import RideDispatch.Request
import RideDispatch.Route

/-!
# Fleets

The dispatcher works with any `Fleet`: a type of states of which it asks which vehicles there are,
whether they are in service and idle, and where and when they are next free. It changes a fleet in
one way only, by committing a vehicle to a request.
-/

namespace RideDispatch

/-- Where and when a vehicle is next free. -/
structure Idleness where
  place : Place
  time : Time

/-- Why a fleet refuses to commit a vehicle to a request. -/
inductive CommitError where
  | unknownVehicle (vehicle : VehicleId)
  /-- The ride could not start before the vehicle leaves service. -/
  | serviceEnded (vehicle : VehicleId) (serviceEnd : Time)
  | noRoute (origin target : LinkId)
  /-- The search for the way from the pickup to the destination left the network. -/
  | strayed (origin target : LinkId)
deriving DecidableEq, Repr

/-- The wording of a refusal. -/
def CommitError.message : CommitError → String
  | unknownVehicle vehicle => vehicle.render ++ " is not part of the fleet"
  | serviceEnded vehicle serviceEnd =>
    vehicle.render ++ " service ends at " ++ toString serviceEnd.ms ++
      " ms, before the ride could start"
  | noRoute origin target => "no route from " ++ origin.render ++ " to " ++ target.render
  | strayed origin target =>
    "the way from " ++ origin.render ++ " to " ++ target.render ++ " leaves the network"

/-- The states of a fleet, as the dispatcher sees them. -/
class Fleet (φ : Type) where
  /-- All vehicles, in ascending order. -/
  vehicleIds : φ → List VehicleId
  /-- Whether a vehicle is in service and has nothing left to do. -/
  isIdle : φ → VehicleId → Time → Bool
  /-- Whether a vehicle is outside its time of service. -/
  isOutOfService : φ → VehicleId → Time → Bool
  /-- The end of what a vehicle has to do, if it can take on something new. -/
  earliestIdleness : φ → VehicleId → Time → Option Idleness
  /-- Appends the ride for a request to what a vehicle has to do, beginning with the drive to the
  pickup. -/
  commit : φ → VehicleId → Request → Route → Time → Except CommitError φ

end RideDispatch

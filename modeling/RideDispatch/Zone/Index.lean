import RideDispatch.Fleet
import RideDispatch.Zone.Map

/-!
# The index of idle vehicles and queued requests

`Zones` keeps a zone map of the vehicles that are idle and one of the requests that wait.
`Zones.syncVehicles` brings the first in line with a fleet.
-/

namespace RideDispatch

/-- The places of idle vehicles and of the pickups of waiting requests. -/
structure Zones where
  vehicles : ZoneMap VehicleId
  requests : ZoneMap RequestId

/-- How many vehicles have come into the index and how many have left it. -/
structure SyncCount where
  added : Nat := 0
  removed : Nat := 0
deriving DecidableEq, Repr

namespace Zones

/-- An index of nothing. -/
def empty (resolution : Resolution) : Zones := ⟨.empty resolution, .empty resolution⟩

/-- Adds a vehicle or moves it. -/
def addVehicle (z : Zones) (vehicle : VehicleId) (place : Place) : Zones :=
  { z with vehicles := z.vehicles.insert vehicle place }

/-- Removes a vehicle. -/
def eraseVehicle (z : Zones) (vehicle : VehicleId) : Zones :=
  { z with vehicles := z.vehicles.erase vehicle }

/-- Adds a request or moves it. -/
def addRequest (z : Zones) (request : RequestId) (pickup : Place) : Zones :=
  { z with requests := z.requests.insert request pickup }

/-- Removes a request. -/
def eraseRequest (z : Zones) (request : RequestId) : Zones :=
  { z with requests := z.requests.erase request }

/-- Where a vehicle is to be indexed, if it is idle. -/
def idlePlace? {φ : Type} [Fleet φ] (fleet : φ) (now : Time) (vehicle : VehicleId) :
    Option Place :=
  if Fleet.isIdle fleet vehicle now then
    (Fleet.earliestIdleness fleet vehicle now).map Idleness.place
  else none

/-- Brings one vehicle in line with the fleet. -/
def syncVehicle {φ : Type} [Fleet φ] (fleet : φ) (now : Time) (z : SyncCount × Zones)
    (vehicle : VehicleId) : SyncCount × Zones :=
  let (count, z) := z
  match idlePlace? fleet now vehicle with
  | some place =>
    (if z.vehicles.contains vehicle then count else { count with added := count.added + 1 },
      z.addVehicle vehicle place)
  | none =>
    (if z.vehicles.contains vehicle then { count with removed := count.removed + 1 } else count,
      z.eraseVehicle vehicle)

/-- Indexes the idle vehicles of a fleet at their places and drops its other vehicles. -/
def syncVehicles {φ : Type} [Fleet φ] (z : Zones) (fleet : φ) (now : Time) : SyncCount × Zones :=
  (Fleet.vehicleIds fleet).foldl (syncVehicle fleet now) ({}, z)

end Zones

end RideDispatch

import RideDispatch.Confirmation
import RideDispatch.Dispatch.Report
import RideDispatch.Fleet

/-!
# Snapshots

Before a cycle pairs anything it takes down which requests and vehicles are free of confirmations:
requests that have not expired, and vehicles in service that are idle or will be within the
planning horizon.
-/

namespace RideDispatch

/-- A request that may be paired. -/
structure RequestEntry where
  id : RequestId
  origin : Place
  earliestStart : Time
  urgent : Bool

/-- A vehicle that may be paired. -/
structure VehicleEntry where
  id : VehicleId
  /-- Where the vehicle becomes free. -/
  place : Place
  /-- When the vehicle becomes free; now if it is idle. -/
  availableAt : Time
  idle : Bool

/-- What a cycle sees. -/
structure Snapshot where
  now : Time
  requests : List RequestEntry
  vehicles : List VehicleEntry
  idleVehicles : Nat
  urgentRequests : Nat
  horizon : PlanningHorizon

namespace Snapshot

/-- The entries of the requests that may be paired. -/
def requestEntries (planning : List Request) (registry : Registry) (now : Time) :
    List RequestEntry :=
  (planning.filter fun r => !registry.isWaitingRequest r.id && !r.isExpired now).map fun r =>
    ⟨r.id, r.origin, r.earliestStart, r.isUrgent now⟩

/-- The vehicles in service that are free of confirmations, and whether they are idle. -/
def freeVehicles {φ : Type} [Fleet φ] (fleet : φ) (registry : Registry) (now : Time) :
    List (VehicleId × Bool) :=
  ((Fleet.vehicleIds fleet).filter fun v =>
    !registry.isWaitingVehicle v && !Fleet.isOutOfService fleet v now).map fun v =>
      (v, Fleet.isIdle fleet v now)

/-- The entry of a vehicle, if it is idle or becomes free by the limit. -/
def reachable? {φ : Type} [Fleet φ] (fleet : φ) (now limit : Time)
    (candidate : VehicleId × Bool) : Option VehicleEntry :=
  match Fleet.earliestIdleness fleet candidate.1 now with
  | none => none
  | some idleness =>
    if candidate.2 ∨ idleness.time ≤ limit then
      some ⟨candidate.1, idleness.place, idleness.time, candidate.2⟩
    else none

/-- The snapshot of the given requests and a fleet. -/
def take {φ : Type} [Fleet φ] (planning : List Request) (fleet : φ) (registry : Registry)
    (settings : Settings) (now : Time) : Snapshot :=
  let requests := requestEntries planning registry now
  let free := freeVehicles fleet registry now
  let urgentRequests := (requests.filter RequestEntry.urgent).length
  let idleVehicles := (free.filter (·.2)).length
  let horizon := PlanningHorizon.choose idleVehicles urgentRequests settings
  { now := now
    requests := requests
    vehicles := free.filterMap (reachable? fleet now (now + horizon.span))
    idleVehicles := idleVehicles
    urgentRequests := urgentRequests
    horizon := horizon }

/-- The entries of the idle vehicles. -/
def idle (s : Snapshot) : List VehicleEntry := s.vehicles.filter VehicleEntry.idle

end Snapshot

end RideDispatch

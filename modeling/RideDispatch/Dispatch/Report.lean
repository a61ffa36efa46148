import RideDispatch.Route
import RideDispatch.Settings

/-!
# Reports of dispatch cycles

A cycle pairs requests with vehicles. What becomes of a pairing is a `Placement`, and a
`CycleReport` counts what a cycle has done.
-/

namespace RideDispatch

/-- A proposal: a vehicle drives along a route to pick up a request. -/
structure Pairing where
  vehicle : VehicleId
  request : RequestId
  pickup : Route

/-- Why a confirmation was consumed without a ride. -/
inductive DropReason where
  /-- The driver did not accept. -/
  | refused
  /-- The vehicle left service while the driver was asked. -/
  | outOfService
  /-- The request reached its deadline. -/
  | expired
  /-- The request is no longer queued. -/
  | notUnplanned
  /-- The fleet refused the ride. -/
  | commitFailed
deriving DecidableEq, Repr

/-- What has become of a pairing. -/
inductive Placement where
  | committed
  /-- The driver has still to answer. -/
  | pending
  | dropped (reason : DropReason)
deriving DecidableEq, Repr

/-- A ride that a vehicle is committed to. -/
structure CommittedRide where
  request : RequestId
  passenger : PassengerId
  vehicle : VehicleId
deriving DecidableEq, Repr

/-- Whether idle vehicles are fewer than urgent requests. -/
inductive Supply where
  | undersupply
  | oversupply
deriving DecidableEq, Repr

/-- How far ahead a busy vehicle counts as available. -/
structure PlanningHorizon where
  supply : Supply
  span : Time
deriving DecidableEq, Repr

namespace PlanningHorizon

/-- The horizon for a number of idle vehicles and of urgent requests. -/
def choose (idleVehicles urgentRequests : Nat) (settings : Settings) : PlanningHorizon :=
  if idleVehicles < urgentRequests then
    ⟨.undersupply, settings.undersupplyHorizon⟩
  else ⟨.oversupply, settings.oversupplyHorizon⟩

end PlanningHorizon

/-- What a cycle has done. -/
structure CycleReport where
  now : Time
  strategy : String
  /-- The number of requests that were planned. -/
  planned : Nat := 0
  /-- The number of confirmations that were opened. -/
  opened : Nat := 0
  committed : List CommittedRide := []
  dropped : List (RequestId × DropReason) := []
  /-- The number of planned requests that found no vehicle. -/
  unmatched : Nat := 0
  horizon : Option PlanningHorizon := none
deriving DecidableEq, Repr

namespace CycleReport

/-- Whether the cycle has done nothing. -/
def isIdle (r : CycleReport) : Bool := r.opened = 0 && r.committed.isEmpty && r.dropped.isEmpty

/-- The vehicle that was committed to a request. -/
def committedVehicle? (r : CycleReport) (request : RequestId) : Option VehicleId :=
  (r.committed.find? fun ride => ride.request = request).map CommittedRide.vehicle

/-- The report with one more committed ride. -/
def addCommitted (r : CycleReport) (ride : CommittedRide) : CycleReport :=
  { r with committed := r.committed ++ [ride] }

/-- The report with one more dropped confirmation. -/
def addDropped (r : CycleReport) (request : RequestId) (reason : DropReason) : CycleReport :=
  { r with dropped := r.dropped ++ [(request, reason)] }

/-- The report with more unmatched requests. -/
def addUnmatched (r : CycleReport) (count : Nat) : CycleReport :=
  { r with unmatched := r.unmatched + count }

end CycleReport

end RideDispatch

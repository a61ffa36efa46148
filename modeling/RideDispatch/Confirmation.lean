import RideDispatch.Confirmation.Event
import RideDispatch.Request
import RideDispatch.Route

/-!
# Driver confirmations

When the dispatcher pairs a request with a vehicle, the driver has to confirm. A confirmation is
open until it is due, when the driver is taken to accept, and it stays registered until it is
consumed. The `Registry` finds confirmations by their requests and by their vehicles; each request
and each vehicle has at most one. An operation that opens or closes a confirmation gives the event
that tells of it.
-/

namespace RideDispatch

/-- A driver's answer that is asked for. -/
structure Confirmation where
  id : ConfirmationId
  request : RequestId
  passenger : PassengerId
  vehicle : VehicleId
  /-- The planned drive to the pickup. -/
  pickup : Route
  createdAt : Time
  dueAt : Time
  complete : Bool
  accepted : Bool

namespace Confirmation

/-- The confirmation with its answer. -/
def resolve (c : Confirmation) (accepted : Bool) : Confirmation :=
  { c with complete := true, accepted := accepted }

/-- Whether the confirmation is open although its time has come. -/
def isDue (c : Confirmation) (now : Time) : Bool := !c.complete && c.dueAt ≤ now

/-- The confirmation at a moment: the driver accepts when it is due. -/
def tick (c : Confirmation) (now : Time) : Confirmation :=
  if c.isDue now then c.resolve true else c

/-- The event that tells of the opening. -/
def createdEvent (c : Confirmation) : ConfirmationEvent :=
  ⟨c.createdAt, c.request, c.passenger, c.vehicle, .created⟩

/-- The event that tells of the closing. -/
def completedEvent (c : Confirmation) (now : Time) : ConfirmationEvent :=
  ⟨now, c.request, c.passenger, c.vehicle, .completed c.accepted⟩

end Confirmation

/-- A defect of the dispatcher: it pairs what is paired already. -/
inductive DispatchError where
  | requestAlreadyPending (request : RequestId)
  | vehicleAlreadyPending (vehicle : VehicleId)
deriving DecidableEq, Repr

/-- The wording of a defect. -/
def DispatchError.message : DispatchError → String
  | requestAlreadyPending request =>
    request.render ++ " already has a pending driver confirmation"
  | vehicleAlreadyPending vehicle =>
    vehicle.render ++ " already has a pending driver confirmation"

/-- The confirmations that are open or wait to be consumed. -/
structure Registry where
  /-- The time a driver takes to confirm. -/
  delay : Time
  /-- The number of the next confirmation. It is kept in a word of 64 bits, but counts by ones from zero, so 2^64
  confirmations would have to be opened before the word wraps and a number comes again. -/
  nextId : Nat
  confirmations : Std.ExtTreeMap ConfirmationId Confirmation
  byRequest : Std.ExtTreeMap RequestId ConfirmationId
  byVehicle : Std.ExtTreeMap VehicleId ConfirmationId

namespace Registry

/-- A registry without confirmations. -/
def empty (delay : Time) : Registry := ⟨delay, 0, ∅, ∅, ∅⟩

/-- Whether a request has a confirmation. -/
def isWaitingRequest (r : Registry) (request : RequestId) : Bool := r.byRequest.contains request

/-- Whether a vehicle has a confirmation. -/
def isWaitingVehicle (r : Registry) (vehicle : VehicleId) : Bool := r.byVehicle.contains vehicle

/-- The confirmation that is opened next for a request and a vehicle. Without a delay it is
accepted at once. -/
def newConfirmation (r : Registry) (request : Request) (vehicle : VehicleId) (pickup : Route)
    (now : Time) : Confirmation :=
  let dueAt := now + r.delay
  let due : Bool := dueAt ≤ now
  ⟨⟨r.nextId⟩, request.id, request.passenger, vehicle, pickup, now, dueAt, due, due⟩

/-- The registry with one more confirmation. -/
def register (r : Registry) (c : Confirmation) : Registry :=
  { r with
    nextId := r.nextId + 1
    confirmations := r.confirmations.insert c.id c
    byRequest := r.byRequest.insert c.request c.id
    byVehicle := r.byVehicle.insert c.vehicle c.id }

/-- Opens a confirmation, unless its request or its vehicle has one. -/
def add (r : Registry) (request : Request) (vehicle : VehicleId) (pickup : Route) (now : Time) :
    Except DispatchError (Confirmation × ConfirmationEvent × Registry) :=
  if r.isWaitingRequest request.id then .error (.requestAlreadyPending request.id)
  else if r.isWaitingVehicle vehicle then .error (.vehicleAlreadyPending vehicle)
  else
    let c := r.newConfirmation request vehicle pickup now
    .ok (c, c.createdEvent, r.register c)

/-- Accepts every confirmation that is due, and counts them. -/
def tick (r : Registry) (now : Time) : Nat × Registry :=
  ((r.confirmations.values.filter fun c => c.isDue now).length,
    { r with confirmations := r.confirmations.map fun _ c => c.tick now })

/-- The registry without a confirmation. -/
def unregister (r : Registry) (c : Confirmation) : Registry :=
  { r with
    confirmations := r.confirmations.erase c.id
    byRequest := r.byRequest.erase c.request
    byVehicle := r.byVehicle.erase c.vehicle }

/-- Closes a confirmation; one that is still open is not accepted. -/
def remove (r : Registry) (id : ConfirmationId) (now : Time) :
    Option (Confirmation × ConfirmationEvent × Registry) :=
  match r.confirmations[id]? with
  | none => none
  | some c => some (c, c.completedEvent now, r.unregister c)

/-- Closes the confirmation of a request as not accepted. -/
def withdraw (r : Registry) (request : RequestId) (now : Time) :
    Option (Confirmation × ConfirmationEvent × Registry) :=
  match r.byRequest[request]? with
  | none => none
  | some id =>
    { r with confirmations := r.confirmations.modify id fun c => c.resolve false }.remove id now

/-- The confirmation of an identity. -/
def get? (r : Registry) (id : ConfirmationId) : Option Confirmation := r.confirmations[id]?

/-- The confirmation of a request. -/
def ofRequest? (r : Registry) (request : RequestId) : Option Confirmation :=
  (r.byRequest[request]?).bind fun id => r.confirmations[id]?

/-- The confirmation of a vehicle. -/
def ofVehicle? (r : Registry) (vehicle : VehicleId) : Option Confirmation :=
  (r.byVehicle[vehicle]?).bind fun id => r.confirmations[id]?

/-- All confirmations, the oldest first. -/
def toList (r : Registry) : List Confirmation := r.confirmations.values

/-- The confirmations that wait to be consumed, the oldest first. -/
def completedIds (r : Registry) : List ConfirmationId :=
  (r.toList.filter Confirmation.complete).map Confirmation.id

/-- The number of confirmations. -/
def size (r : Registry) : Nat := r.confirmations.size

end Registry

end RideDispatch

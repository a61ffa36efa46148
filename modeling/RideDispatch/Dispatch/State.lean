import RideDispatch.Dispatch.Snapshot
import RideDispatch.Zone.Index

/-!
# The state of the dispatcher

A `DispatchState` holds the requests that no vehicle is committed to, the driver confirmations and
the index of zones. While a cycle runs, a `Session` holds the state together with the fleet, the
events so far and the report so far.

`Session.consume` turns a confirmation that is complete into a ride or drops it, and
`Session.openConfirmation` asks the driver of a pairing. Both are all or nothing: what they give
differs from what they got only by the effects of one ride or of one dropped confirmation, and a
pairing that is a defect changes nothing.
-/

namespace RideDispatch

/-- The requests that no vehicle is committed to. -/
structure RequestQueue where
  requests : Std.ExtTreeMap RequestId Request

namespace RequestQueue

/-- A queue without requests. -/
def empty : RequestQueue := ⟨∅⟩

/-- Adds a request, or replaces the one of the same identity. -/
def insert (q : RequestQueue) (r : Request) : RequestQueue := ⟨q.requests.insert r.id r⟩

/-- Removes a request. -/
def erase (q : RequestQueue) (id : RequestId) : RequestQueue := ⟨q.requests.erase id⟩

/-- The request of an identity. -/
def get? (q : RequestQueue) (id : RequestId) : Option Request := q.requests[id]?

/-- Whether a request is queued. -/
def contains (q : RequestQueue) (id : RequestId) : Bool := q.requests.contains id

/-- The identities of the requests, in ascending order. -/
def ids (q : RequestQueue) : List RequestId := q.requests.keys

/-- The requests in the order of their identities. -/
def toList (q : RequestQueue) : List Request := q.requests.values

/-- The number of requests. -/
def size (q : RequestQueue) : Nat := q.requests.size

/-- Whether nothing is queued. -/
def isEmpty (q : RequestQueue) : Bool := q.requests.isEmpty

/-- Counts one more attempt to plan a request. -/
def countAttempt (q : RequestQueue) (id : RequestId) : RequestQueue :=
  ⟨q.requests.modify id fun r => { r with attempts := r.attempts + 1 }⟩

end RequestQueue

/-- What the dispatcher remembers between cycles. -/
structure DispatchState where
  queue : RequestQueue
  registry : Registry
  zones : Zones

namespace DispatchState

/-- The state at the beginning. -/
def empty (delay : Time) (resolution : Resolution) : DispatchState :=
  ⟨.empty, .empty delay, .empty resolution⟩

/-- Whether a request can take a confirmation: it is queued, has none and has not expired. -/
def isPlannable (s : DispatchState) (request : RequestId) (now : Time) : Bool :=
  !s.registry.isWaitingRequest request &&
    match s.queue.get? request with
    | some r => !r.isExpired now
    | none => false

end DispatchState

/-- A dispatch cycle at work. -/
structure Session (φ : Type) where
  state : DispatchState
  fleet : φ
  /-- What has been told to the world in this cycle. -/
  events : List ConfirmationEvent
  report : CycleReport
  /-- Whether a search for a route has left the network. What follows such a search does not
  count. -/
  astray : Bool

/-- Why a confirmation was consumed without a ride. -/
structure Refusal where
  reason : DropReason
  /-- Whether the search for a route left the network. -/
  astray : Bool := false

/-- What a fleet's refusal to commit a vehicle means for the confirmation. -/
def Refusal.ofCommitError : CommitError → Refusal
  | .strayed _ _ => { reason := .commitFailed, astray := true }
  | _ => { reason := .commitFailed }

/-- The moment of a cycle and the router it asks. -/
structure CycleContext where
  now : Time
  router : Router

namespace Session

variable {φ : Type} [Fleet φ]

/-- Notes whether a search for a route has left the network. -/
def note (s : Session φ) (astray : Bool) : Session φ := { s with astray := s.astray || astray }

/-- What comes of a complete confirmation: the fleet with the ride, or the reason for none. -/
def outcome (s : Session φ) (now : Time) (c : Confirmation) : Except Refusal φ :=
  if !c.accepted then .error { reason := .refused }
  else if Fleet.isOutOfService s.fleet c.vehicle now then .error { reason := .outOfService }
  else
    match s.state.queue.get? c.request with
    | none => .error { reason := .notUnplanned }
    | some request =>
      if request.isExpired now then .error { reason := .expired }
      else
        match Fleet.commit s.fleet c.vehicle request (c.pickup.retimed now) now with
        | .ok fleet => .ok fleet
        | .error e => .error (.ofCommitError e)

/-- The session without a confirmation, of which the event tells. -/
def close (s : Session φ) (now : Time) (c : Confirmation) : Session φ :=
  { s with
    state := { s.state with registry := s.state.registry.unregister c }
    events := s.events ++ [c.completedEvent now] }

/-- The session with a ride: the request is no longer queued, and neither it nor the vehicle is
indexed. -/
def commitRide (s : Session φ) (c : Confirmation) (fleet : φ) : Session φ :=
  { s with
    state := { s.state with
      queue := s.state.queue.erase c.request
      zones := (s.state.zones.eraseRequest c.request).eraseVehicle c.vehicle }
    fleet := fleet
    report := s.report.addCommitted ⟨c.request, c.passenger, c.vehicle⟩ }

/-- Consumes a confirmation. A request without a ride stays queued. -/
def consume (s : Session φ) (now : Time) (id : ConfirmationId) : Placement × Session φ :=
  match s.state.registry.get? id with
  | none => (.dropped .notUnplanned, s)
  | some c =>
    match s.outcome now c with
    | .ok fleet => (.committed, (s.close now c).commitRide c fleet)
    | .error refusal =>
      let closed := (s.close now c).note refusal.astray
      (.dropped refusal.reason,
        { closed with report := closed.report.addDropped c.request refusal.reason })

/-- The session with a confirmation that has just been opened. -/
def opened (s : Session φ) (event : ConfirmationEvent) (registry : Registry) : Session φ :=
  { s with
    state := { s.state with registry := registry }
    events := s.events ++ [event]
    report := { s.report with opened := s.report.opened + 1 } }

/-- Asks the driver of a pairing. A confirmation that is accepted at once is consumed at once, and
a request that is not queued is dropped. -/
def openConfirmation (s : Session φ) (now : Time) (p : Pairing) :
    Except DispatchError (Placement × Session φ) :=
  match s.state.queue.get? p.request with
  | none =>
    .ok (.dropped .notUnplanned,
      { s with report := s.report.addDropped p.request .notUnplanned })
  | some request =>
    match s.state.registry.add request p.vehicle p.pickup now with
    | .error e => .error e
    | .ok (c, event, registry) =>
      let s := s.opened event registry
      .ok (if c.complete then s.consume now c.id else (.pending, s))

/-- Consumes several confirmations, one after the other. -/
def consumeAll (s : Session φ) (now : Time) (ids : List ConfirmationId) : Session φ :=
  ids.foldl (fun s id => (s.consume now id).2) s

/-- The session after the index has been brought in line with the fleet. -/
def syncVehicles (s : Session φ) (now : Time) : Session φ :=
  { s with
    state := { s.state with zones := (s.state.zones.syncVehicles s.fleet now).2 } }

end Session

end RideDispatch

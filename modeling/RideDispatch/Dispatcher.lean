import RideDispatch.Dispatch.Batch

/-!
# The dispatcher

A `Dispatcher` takes requests in, gives them up again, and runs dispatch cycles. A cycle accepts
the confirmations that are due, brings the index of zones in line with the fleet, turns complete
confirmations into rides, counts an attempt for every request that has to be planned, takes a
snapshot and lets the strategy make pairings. A defect ends a cycle; what was done before it stays,
but the cycle has no report.
-/

namespace RideDispatch

/-- Makes the pairings of a cycle by the strategy of the settings. -/
def Session.schedule {φ : Type} [Fleet φ] [Matching.Solver] (s : Session φ) (settings : Settings)
    (resolution : Resolution) (ctx : CycleContext) (planning : List RequestId)
    (snapshot : Snapshot) : PassResult φ :=
  match settings.strategy with
  | .ruleBased => Greedy.schedule settings ctx planning snapshot s
  | .assignment => Batch.schedule settings resolution ctx snapshot s

/-- The dispatcher: its settings and its state. -/
structure Dispatcher where
  settings : Settings
  resolution : Resolution
  state : DispatchState

/-- What a cycle leaves. -/
structure CycleResult (φ : Type) where
  dispatcher : Dispatcher
  fleet : φ
  /-- What was told to the world, in order. -/
  events : List ConfirmationEvent
  report : Except DispatchError CycleReport
  /-- Whether a search for a route has left the network, so that the cycle does not count. -/
  astray : Bool

/-- What giving up a request leaves. -/
structure Withdrawal where
  request : Request
  dispatcher : Dispatcher
  events : List ConfirmationEvent

namespace Dispatcher

/-- A dispatcher with valid settings that knows of nothing yet. -/
def ofSettings (settings : Settings) : Except SettingsError Dispatcher := do
  settings.validate
  let resolution ← settings.resolution
  return ⟨settings, resolution, .empty settings.confirmationDelay resolution⟩

/-- The time between two cycles. -/
def reoptimizationStep (d : Dispatcher) : Time := d.settings.reoptimizationStep

/-- Takes a request in. One of the same identity that is queued is replaced. -/
def submit (d : Dispatcher) (request : Request) : Dispatcher :=
  { d with state := { d.state with
      queue := d.state.queue.insert request
      zones := d.state.zones.addRequest request.id request.origin } }

/-- Gives up a queued request. Its confirmation, if it has one, is closed as not accepted. -/
def withdraw (d : Dispatcher) (id : RequestId) (now : Time) : Option Withdrawal :=
  match d.state.queue.get? id with
  | none => none
  | some request =>
    let closed := d.state.registry.withdraw id now
    let registry := match closed with
      | some (_, _, registry) => registry
      | none => d.state.registry
    let events := match closed with
      | some (_, event, _) => [event]
      | none => []
    let state : DispatchState :=
      ⟨d.state.queue.erase id, registry, d.state.zones.eraseRequest id⟩
    some ⟨request, { d with state := state }, events⟩

/-- The part of a cycle that deals with earlier pairings: confirmations that are due are accepted
and those that are complete are consumed. -/
def settle {φ : Type} [Fleet φ] (d : Dispatcher) (now : Time) (fleet : φ) : Session φ :=
  let state := { d.state with registry := (d.state.registry.tick now).2 }
  let report : CycleReport := { now := now, strategy := d.settings.strategy.name }
  let session : Session φ := ⟨state, fleet, [], report, false⟩
  let session := session.syncVehicles now
  let session := session.consumeAll now session.state.registry.completedIds
  if session.report.committed.isEmpty then session else session.syncVehicles now

/-- The requests that a cycle plans: those without a confirmation. -/
def planning (state : DispatchState) : List RequestId :=
  state.queue.ids.filter fun id => !state.registry.isWaitingRequest id

/-- Runs a cycle. -/
def runCycle {φ : Type} [Fleet φ] [Matching.Solver] (d : Dispatcher) (ctx : CycleContext) (fleet : φ) :
    CycleResult φ :=
  let s := d.settle ctx.now fleet
  let planning := planning s.state
  let queue := planning.foldl RequestQueue.countAttempt s.state.queue
  let snapshot := Snapshot.take (planning.filterMap queue.get?) s.fleet s.state.registry
    d.settings ctx.now
  let s := { s with
    state := { s.state with queue := queue }
    report := { s.report with planned := planning.length, horizon := some snapshot.horizon } }
  let result : PassResult φ :=
    if planning.isEmpty then { session := s }
    else s.schedule d.settings d.resolution ctx planning snapshot
  { dispatcher := { d with state := result.session.state }
    fleet := result.session.fleet
    events := result.session.events
    report := match result.defect with
      | some e => .error e
      | none => .ok result.session.report
    astray := result.session.astray }

/-- Whether anything is left to do: a queued request or a confirmation. -/
def hasPendingWork (d : Dispatcher) : Bool :=
  !d.state.queue.isEmpty || !d.state.registry.confirmations.isEmpty

end Dispatcher

end RideDispatch

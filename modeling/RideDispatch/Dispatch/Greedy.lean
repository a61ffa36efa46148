import RideDispatch.Dispatch.Finder
import RideDispatch.Dispatch.State

/-!
# Pairing one by one

The rule-based strategy makes one pairing after the other. Either each request takes the vehicle
that reaches it first, or each idle vehicle takes the request that it reaches first; the goal
decides. A defect stops the pass, and what was done before it stays.
-/

namespace RideDispatch

/-- A session after a pass, and the defect that stopped the pass if there was one. -/
structure PassResult (φ : Type) where
  session : Session φ
  defect : Option DispatchError := none

namespace Greedy

variable {φ : Type} [Fleet φ]

/-- Whether vehicles choose: always, never, or while urgent requests outnumber idle vehicles. -/
def vehicleInitiated (goal : Goal) (snapshot : Snapshot) : Bool :=
  match goal with
  | .minWaitTime => false
  | .minPickupTime => true
  | .demandSupplyEquilibrium => snapshot.idleVehicles < snapshot.urgentRequests

/-- The nearest indexed vehicles without a confirmation, as candidates for a request. -/
def candidateVehicles (state : DispatchState) (limit : Nat) (now : Time) (request : Request) :
    List VehicleEntry :=
  let near := state.zones.vehicles.nearest request.origin.coord limit fun v =>
    !state.registry.isWaitingVehicle v
  near.filterMap fun v =>
    (state.zones.vehicles.place? v).map fun place => ⟨v, place, now, true⟩

/-- The nearest indexed requests that can take a confirmation, as candidates for a vehicle. -/
def candidateRequests (state : DispatchState) (limit : Nat) (now : Time)
    (vehicle : VehicleEntry) : List Request :=
  let near := state.zones.requests.nearest vehicle.place.coord limit fun r =>
    state.isPlannable r now
  near.filterMap state.queue.get?

/-- Lets each request of a list take a vehicle. The count tells how many idle vehicles are left;
without any, a request that could be planned is unmatched. -/
def offerRequests (ctx : CycleContext) (limit : Nat) :
    List RequestId → Nat → Session φ → PassResult φ
  | [], _, s => { session := s }
  | id :: rest, idle, s =>
    if !s.state.isPlannable id ctx.now then offerRequests ctx limit rest idle s
    else if idle = 0 then
      offerRequests ctx limit rest idle { s with report := s.report.addUnmatched 1 }
    else
      match s.state.queue.get? id with
      | none => offerRequests ctx limit rest idle s
      | some request =>
        let candidates := candidateVehicles s.state limit ctx.now request
        let s := s.note (straysForRequest ctx.router request candidates)
        match bestVehicle? ctx.router request candidates with
        | none => offerRequests ctx limit rest idle { s with report := s.report.addUnmatched 1 }
        | some pairing =>
          match s.openConfirmation ctx.now pairing with
          | .error e => { session := s, defect := some e }
          | .ok (_, next) =>
            let idle := if s.report.opened < next.report.opened then idle - 1 else idle
            offerRequests ctx limit rest idle next

/-- Lets each vehicle of a list take a request, as long as any is queued. Vehicles that are no
longer indexed or have a confirmation are passed over. -/
def offerVehicles (ctx : CycleContext) (limit : Nat) :
    List VehicleEntry → Session φ → PassResult φ
  | [], s => { session := s }
  | vehicle :: rest, s =>
    if s.state.queue.isEmpty then { session := s }
    else if s.state.registry.isWaitingVehicle vehicle.id ||
        !s.state.zones.vehicles.contains vehicle.id then
      offerVehicles ctx limit rest s
    else
      let candidates := candidateRequests s.state limit ctx.now vehicle
      let s := s.note (straysForVehicle ctx.router vehicle candidates)
      match bestRequest? ctx.router vehicle candidates with
      | none => offerVehicles ctx limit rest s
      | some pairing =>
        match s.openConfirmation ctx.now pairing with
        | .error e => { session := s, defect := some e }
        | .ok (_, next) => offerVehicles ctx limit rest next

/-- The number of requests of a list that can take a confirmation. -/
def countPlannable (state : DispatchState) (now : Time) (planning : List RequestId) : Nat :=
  (planning.filter fun id => state.isPlannable id now).length

/-- Makes the pairings of a cycle. -/
def schedule (settings : Settings) (ctx : CycleContext) (planning : List RequestId)
    (snapshot : Snapshot) (s : Session φ) : PassResult φ :=
  if vehicleInitiated settings.goal snapshot then
    let result := offerVehicles ctx settings.nearestRequestsLimit snapshot.idle s
    match result.defect with
    | some _ => result
    | none =>
      let s := result.session
      let unmatched := countPlannable s.state ctx.now planning
      { session := { s with report := { s.report with unmatched := unmatched } } }
  else
    offerRequests ctx settings.nearestVehiclesLimit planning snapshot.idleVehicles s

end Greedy

end RideDispatch

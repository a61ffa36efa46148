import RideDispatch.Dispatch.Greedy
import RideDispatch.Dispatch.Summary
import RideDispatch.Matching.Sparse

/-!
# Pairing all at once

The assignment strategy considers for each request the nearest vehicles and for each vehicle the
nearest requests. Among those candidates that a route connects it makes as many pairings as it can,
at the least total cost: the time of the drive to the pickup and, weighted, the time that the
passenger waits for it. For the requests that are left over it looks how far idle vehicles are
from them.
-/

namespace RideDispatch.Batch

variable {φ : Type} [Fleet φ]

/-- The numbers of a request and of a vehicle that may be paired. -/
structure Candidate where
  request : Nat
  vehicle : Nat
deriving DecidableEq, Repr

/-- A candidate with the route to the pickup and its cost. -/
structure Offer where
  candidate : Candidate
  pickup : Route
  cost : Float

/-- The cost of a route to a pickup in seconds. -/
def cost (weight : Float) (request : Request) (pickup : Route) : Float :=
  pickup.travelTime.toSecs + weight * (pickup.arrival - request.earliestStart).toSecs

/-- The zone map of some places, which go by their numbers. -/
def zonesOf (resolution : Resolution) (places : List Place) : ZoneMap Nat :=
  places.zipIdx.foldl (fun zones entry => zones.insert entry.2 entry.1) (.empty resolution)

/-- The vehicles that are considered for each request: those nearest to it, and those to which it
is among the nearest. -/
def candidates (settings : Settings) (resolution : Resolution) (requests : List Request)
    (vehicles : List VehicleEntry) : List Candidate :=
  let vehicleZones := zonesOf resolution (vehicles.map VehicleEntry.place)
  let requestZones := zonesOf resolution (requests.map Request.origin)
  let nearVehicles := requests.map fun r =>
    vehicleZones.nearest r.origin.coord settings.nearestVehiclesLimit fun _ => true
  let nearRequests := vehicles.map fun v =>
    requestZones.nearest v.place.coord settings.nearestRequestsLimit fun _ => true
  nearVehicles.zipIdx.flatMap fun row =>
    (List.range vehicles.length).filterMap fun v =>
      if row.1.contains v || (nearRequests.getD v []).contains row.2 then some ⟨row.2, v⟩
      else none

/-- The offer of a candidate, if there is a route to the pickup. -/
def offer? (settings : Settings) (router : Router) (requests : List Request)
    (vehicles : List VehicleEntry) (c : Candidate) : Option Offer :=
  match requests[c.request]?, vehicles[c.vehicle]? with
  | some request, some vehicle =>
    (router.route? vehicle.place request.origin vehicle.availableAt).map fun pickup =>
      ⟨c, pickup, cost settings.waitTimeWeight request pickup⟩
  | _, _ => none

/-- Whether the search for the route of a candidate to the pickup leaves the network. -/
def candidateStrays (router : Router) (requests : List Request) (vehicles : List VehicleEntry)
    (c : Candidate) : Bool :=
  match requests[c.request]?, vehicles[c.vehicle]? with
  | some request, some vehicle => router.strays vehicle.place request.origin
  | _, _ => false

/-- The edge that an offer is in the matching. -/
def Offer.edge (o : Offer) : Matching.Edge := ⟨o.candidate.request, o.candidate.vehicle, o.cost⟩

/-- The pairing of the request and the vehicle of given numbers. -/
def pairing? (requests : List Request) (vehicles : List VehicleEntry) (offers : List Offer)
    (pair : Nat × Nat) : Option Pairing :=
  match requests[pair.1]?, vehicles[pair.2]?,
    offers.find? fun o => o.candidate = ⟨pair.1, pair.2⟩ with
  | some request, some vehicle, some offer => some ⟨vehicle.id, request.id, offer.pickup⟩
  | _, _, _ => none

/-- The pickups of the requests that no pair holds. -/
def leftOver (requests : List Request) (pairs : List (Nat × Nat)) : List Place :=
  (requests.zipIdx.filter fun entry => !pairs.any fun pair => pair.1 = entry.2).map fun entry =>
    entry.1.origin

/-- Opens the confirmations of several pairings, up to the first defect. -/
def openAll (now : Time) : List Pairing → Session φ → PassResult φ
  | [], s => { session := s }
  | pairing :: rest, s =>
    match s.openConfirmation now pairing with
    | .error e => { session := s, defect := some e }
    | .ok (_, next) => openAll now rest next

/-- The requests of a snapshot that can take a confirmation. -/
def plannableRequests (state : DispatchState) (snapshot : Snapshot) (now : Time) :
    List Request :=
  (snapshot.requests.filter fun e => state.isPlannable e.id now).filterMap fun e =>
    state.queue.get? e.id

/-- The vehicles of a snapshot without a confirmation. -/
def freeVehicles (state : DispatchState) (snapshot : Snapshot) : List VehicleEntry :=
  snapshot.vehicles.filter fun v => !state.registry.isWaitingVehicle v.id

/-- Makes the pairings of a cycle. -/
def schedule [Matching.Solver] (settings : Settings) (resolution : Resolution) (ctx : CycleContext)
    (snapshot : Snapshot) (s : Session φ) : PassResult φ :=
  let requests := plannableRequests s.state snapshot ctx.now
  if requests.isEmpty then { session := s }
  else
    let vehicles := freeVehicles s.state snapshot
    let candidates := candidates settings resolution requests vehicles
    let offers := candidates.filterMap (offer? settings ctx.router requests vehicles)
    let pairs := Matching.solve requests.length vehicles.length (offers.map Offer.edge)
    let report := s.report.addUnmatched (requests.length - pairs.length)
    let astray := candidates.any (candidateStrays ctx.router requests vehicles) ||
      FleetSummary.strays s.fleet s.state.registry ctx.router (leftOver requests pairs) ctx.now
        settings.undersupplyHorizon
    openAll ctx.now (pairs.filterMap (pairing? requests vehicles offers))
      { s.note astray with report := report }

end RideDispatch.Batch

import RideDispatch.Dispatch.Snapshot

/-!
# The best single pairing

`bestVehicle?` and `bestRequest?` choose the candidate that makes the earliest pickup; of several
that make it at the same time, the first one in the list. They ask for the routes of all
candidates and go through the answers, which stand in the order of the candidates.
`straysForRequest` and `straysForVehicle` tell whether that leads out of the network.
-/

namespace RideDispatch

/-- The better of the best answer so far and the next one, each with its position. Only a route
that arrives before the best one so far takes its place. -/
def sooner (best : Option (Nat × Route)) (answer : Option Route × Nat) : Option (Nat × Route) :=
  match answer with
  | (none, _) => best
  | (some route, idx) =>
    if best.all fun b => route.arrival < b.2.arrival then some (idx, route) else best

/-- The answer whose route arrives first, with its position: the first one in the list if several
do. Answers without a route do not count. -/
def earliestArrival? (found : List (Option Route)) : Option (Nat × Route) :=
  found.zipIdx.foldl sooner none

/-- The vehicle that reaches the pickup of a request first. -/
def bestVehicle? (router : Router) (request : Request) (candidates : List VehicleEntry) :
    Option Pairing := do
  let found := router.routesTo (candidates.map fun v => (v.place, v.availableAt)) request.origin
  let (idx, route) ← earliestArrival? found
  let vehicle ← candidates[idx]?
  return ⟨vehicle.id, request.id, route⟩

/-- Whether a search for the route of a vehicle to a request leaves the network. -/
def straysForRequest (router : Router) (request : Request) (candidates : List VehicleEntry) :
    Bool :=
  router.straysTo (candidates.map VehicleEntry.place) request.origin

/-- The request whose pickup a vehicle reaches first. -/
def bestRequest? (router : Router) (vehicle : VehicleEntry) (candidates : List Request) :
    Option Pairing := do
  let found := router.routesFrom vehicle.place (candidates.map Request.origin) vehicle.availableAt
  let (idx, route) ← earliestArrival? found
  let request ← candidates[idx]?
  return ⟨vehicle.id, request.id, route⟩

/-- Whether a search for the route of a vehicle to one of several requests leaves the network. -/
def straysForVehicle (router : Router) (vehicle : VehicleEntry) (candidates : List Request) :
    Bool :=
  router.straysFrom vehicle.place (candidates.map Request.origin)

end RideDispatch

import RideDispatch.Clock
import RideDispatch.Dispatcher
import RideDispatch.Fleet.Schedule
import RideDispatch.Log
import RideDispatch.Network.Way

/-!
# Scenarios

A scenario is a road network with vehicles and passengers and the parameters of a simulation.
`Scenario.build` places everything on the network and gives the simulation at its beginning, with
the submission of every request scheduled; the requests are numbered in the order of the
passengers.
-/

namespace RideDispatch

/-- A vehicle that stands on a link at the beginning. -/
structure VehicleSpec where
  id : VehicleId
  link : LinkId
  serviceBegin : Time
  serviceEnd : Time
deriving DecidableEq, Repr

/-- A passenger who asks for a ride at a moment. -/
structure PassengerSpec where
  id : PassengerId
  origin : LinkId
  target : LinkId
  departure : Time
deriving DecidableEq, Repr

/-- The parameters of a simulation. Durations are in seconds. -/
structure ScenarioParams where
  settings : Settings := {}
  pickupDurationSecs : UInt64 := 120
  dropoffDurationSecs : UInt64 := 60
  /-- How long a passenger searches; for ever without a limit. -/
  maxSearchSecs : Option UInt64 := none
  /-- The moment at which the simulation ends, if it does. -/
  endTime : Option Time := none

/-- A request that has still to be submitted. -/
structure UpcomingRequest where
  passenger : PassengerId
  origin : Place
  destination : Place

/-- Why a scenario cannot be built. -/
inductive ScenarioError where
  | settings (e : SettingsError)
  | unknownLink (link : LinkId)
  | duplicateVehicle (e : DuplicateVehicle)
  /-- A link leads beyond the lattice, so nobody can stand there. -/
  | offLattice (e : OffLattice)

/-- The wording of a fault in a scenario. -/
def ScenarioError.message : ScenarioError → String
  | settings e => e.message
  | unknownLink link => link.render ++ " does not exist in the network"
  | duplicateVehicle e => e.message
  | offLattice e => "node " ++ toString e.node ++ " does not lie on the lattice"

/-- Everything that a simulation changes, and the parameters it goes by. -/
structure Simulation where
  clock : Clock
  log : Log
  router : Router
  fleet : ScheduledFleet
  dispatcher : Dispatcher
  /-- The requests that have still to be submitted. -/
  upcoming : Std.ExtTreeMap RequestId UpcomingRequest
  maxSearch : Option Time
  endTime : Option Time
  /-- Whether a search for a route has left the network, or the time of a cycle has not fitted in a
  word. What follows does not count. -/
  astray : Bool := false

namespace Scenario

/-- The place of whoever is on a link. -/
def placeOn (network : Network) (link : LinkId) : Except ScenarioError Place :=
  match network.place? link with
  | .error e => .error (.offLattice e)
  | .ok none => .error (.unknownLink link)
  | .ok (some place) => .ok place

/-- Adds a vehicle to a fleet. -/
def addVehicle (network : Network) (fleet : ScheduledFleet) (spec : VehicleSpec) :
    Except ScenarioError ScheduledFleet := do
  let place ← placeOn network spec.link
  match fleet.addVehicle spec.id place spec.serviceBegin spec.serviceEnd with
  | .ok fleet => return fleet
  | .error e => throw (.duplicateVehicle e)

/-- The requests to come and the events of their submission. -/
structure Demand where
  upcoming : Std.ExtTreeMap RequestId UpcomingRequest := ∅
  clock : Clock := {}

/-- Adds the request of a passenger. -/
def addPassenger (network : Network) (demand : Demand) (entry : PassengerSpec × Nat) :
    Except ScenarioError Demand := do
  let (spec, number) := entry
  let origin ← placeOn network spec.origin
  let destination ← placeOn network spec.target
  let id : RequestId := ⟨number.toUInt64⟩
  return {
    upcoming := demand.upcoming.insert id ⟨spec.id, origin, destination⟩
    clock := demand.clock.schedule spec.departure .requestSubmitted (some (.request id)) }

/-- The simulation of a scenario at its beginning. -/
def build (network : Network) (vehicles : List VehicleSpec) (passengers : List PassengerSpec)
    (params : ScenarioParams) : Except ScenarioError Simulation := do
  let dispatcher ← (Dispatcher.ofSettings params.settings).mapError .settings
  let router := (WayTable.ofNetwork network).router
  let empty := ScheduledFleet.empty router (Time.ofSecs params.pickupDurationSecs)
    (Time.ofSecs params.dropoffDurationSecs)
  let fleet ← vehicles.foldlM (addVehicle network) empty
  let demand ← passengers.zipIdx.foldlM (addPassenger network) ({} : Demand)
  return {
    clock := demand.clock
    log := {}
    router := router
    fleet := fleet
    dispatcher := dispatcher
    upcoming := demand.upcoming
    maxSearch := params.maxSearchSecs.map Time.ofSecs
    endTime := params.endTime }

end Scenario

end RideDispatch

import RideDispatch.Place
import RideDispatch.Time

/-!
# Routes

A route is a way through the road network with a time of departure. Whatever answers questions
for routes is a `Router`; the dispatch functions take any router. A router whose network is broken
also tells which questions lead its search out of the network; those who ask keep account of that.
-/

namespace RideDispatch

/-- A timed way through the road network. -/
structure Route where
  departure : Time
  travelTime : Time
  /-- The generalised cost of the way, for a road network its travel time in seconds. -/
  cost : Float
  /-- The links along the way, from the one left to the one reached. -/
  links : List LinkId

namespace Route

/-- The moment at which the route ends. -/
def arrival (r : Route) : Time := r.departure + r.travelTime

/-- The same way, left no earlier than `now`. -/
def retimed (r : Route) (now : Time) : Route := { r with departure := max r.departure now }

end Route

/-- A source of routes: the fastest way between two places at a time of departure, if any. -/
structure Router where
  route? : Place → Place → Time → Option Route
  /-- Whether the search for a route leaves the network, in which case there is none. -/
  strays : Place → Place → Bool := fun _ _ => false

namespace Router

/-- The routes from one place to each of several. -/
def routesFrom (r : Router) (origin : Place) (targets : List Place) (departure : Time) :
    List (Option Route) :=
  targets.map fun target => r.route? origin target departure

/-- The routes to one place from several, each left at a time of its own. -/
def routesTo (r : Router) (origins : List (Place × Time)) (target : Place) :
    List (Option Route) :=
  origins.map fun o => r.route? o.1 target o.2

/-- Whether the search for a route from one place to one of several leaves the network. -/
def straysFrom (r : Router) (origin : Place) (targets : List Place) : Bool :=
  targets.any (r.strays origin)

/-- Whether the search for a route to one place from one of several leaves the network. -/
def straysTo (r : Router) (origins : List Place) (target : Place) : Bool :=
  origins.any fun origin => r.strays origin target

end Router

end RideDispatch

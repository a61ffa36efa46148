import RideDispatch.Network.Way

/-!
# A road network that remembers its answers

A `CachedNetwork` keeps the answers to the latest questions for ways, the most recent one first.
Every added link makes it forget them all, so an answer is always the one of the present links.
-/

namespace RideDispatch

/-- A question for a way, from one link to another. -/
structure WayQuery where
  first : LinkId
  last : LinkId
deriving DecidableEq, Repr

/-- A network with the answers to its latest questions. -/
structure CachedNetwork where
  network : Network
  /-- The answers that are remembered, the most recently used one first. -/
  answers : List (WayQuery × Option Way) := []

namespace CachedNetwork

/-- The number of answers that are remembered. -/
def capacity : Nat := 10000

/-- Adds a link in one direction. -/
def addOneWay (c : CachedNetwork) (tail head : Position) :
    Except OffLattice (LinkId × CachedNetwork) :=
  (c.network.addOneWay tail head).map fun (id, n) => (id, { network := n })

/-- Adds a link in each direction. -/
def addDouble (c : CachedNetwork) (a b : Position) :
    Except OffLattice ((LinkId × LinkId) × CachedNetwork) :=
  (c.network.addDouble a b).map fun (ids, n) => (ids, { network := n })

/-- The answer that is remembered for a question. -/
def answer? (c : CachedNetwork) (q : WayQuery) : Option (Option Way) :=
  (c.answers.find? fun entry => entry.1 = q).map (·.2)

/-- Moves an answer to the front, and forgets the one used longest ago if there are too many. -/
def remember (c : CachedNetwork) (q : WayQuery) (way : Option Way) : CachedNetwork :=
  let others := c.answers.filter fun entry => entry.1 ≠ q
  { c with answers := ((q, way) :: others).take capacity }

/-- The way between two links, remembered or searched for. -/
def way? (c : CachedNetwork) (q : WayQuery) : Except OffLattice (Option Way × CachedNetwork) :=
  match c.answer? q with
  | some way => .ok (way, c.remember q way)
  | none => (c.network.way? q.first q.last).map fun way => (way, c.remember q way)

/-- The route between two places. -/
def route? (c : CachedNetwork) (origin target : Place) (departure : Time) :
    Except OffLattice (Option Route × CachedNetwork) :=
  (c.way? ⟨origin.link, target.link⟩).map fun (way, c) =>
    (way.map fun way => way.route departure, c)

end CachedNetwork

end RideDispatch

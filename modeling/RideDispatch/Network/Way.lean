import RideDispatch.Graph.Search
import RideDispatch.Network
import RideDispatch.Route

/-!
# Ways through the road network

Whoever is on a link stands at its far end, so the way from link `a` to link `b` is the shortest
path from the head of `a` to the tail of `b`, and then `b` itself. `Network.way?` searches for one
way; a `WayTable` keeps the search from each node, so that a router made of it searches once.
-/

namespace RideDispatch

/-- A way through the network: the time it takes and its links, the first and last included. -/
structure Way where
  travelTime : Time
  links : List LinkId
deriving DecidableEq, Repr

namespace Network

/-- The links that leave a node. -/
def linksFrom (n : Network) (node : Nat) : List Link :=
  match n.outgoing[node]? with
  | none => []
  | some ids => ids.filterMap fun id => n.links[id]?

/-- The arcs that leave a node of the lattice. -/
def arcs (n : Network) (node : Nat) : Option (List Arc) :=
  if node < n.nodeCount then
    some ((n.linksFrom node).map fun l => ⟨l.head, l.travelTime.toNat⟩)
  else none

/-- The search for the shortest paths from a node. -/
def searchFrom (n : Network) (node : Nat) : Search := Search.run n.arcs n.links.size node

/-- Whether a link is taken before another one between the same nodes. -/
def quicker (a b : Link) : Bool :=
  a.travelTime < b.travelTime || a.travelTime = b.travelTime && a.id < b.id

/-- The quickest of several links. -/
def quickest? : List Link → Option Link
  | [] => none
  | l :: rest => some (rest.foldl (fun best l => if quicker l best then l else best) l)

/-- The link that leads from one node to another. -/
def linkTo? (n : Network) (tail head : Nat) : Option Link :=
  quickest? ((n.linksFrom tail).filter fun l => l.head = head)

/-- The links along a list of nodes. -/
def linksAlong? (n : Network) : List Nat → Option (List LinkId)
  | tail :: head :: rest =>
    match n.linkTo? tail head, n.linksAlong? (head :: rest) with
    | some l, some ids => some (l.id :: ids)
    | _, _ => none
  | _ => some []

/-- The way from one link to another, given the search from the head of the first. -/
def wayBy? (n : Network) (search : Search) (first last : Link) : Except OffLattice (Option Way) :=
  match search.path? last.tail with
  | some (nodes, cost) =>
    .ok ((n.linksAlong? nodes).map fun ids =>
      ⟨Time.ofNat (cost + last.travelTime.toNat), first.id :: (ids ++ [last.id])⟩)
  | none => if search.misses last.tail then .error ⟨first.head⟩ else .ok none

/-- The quickest way from one link to another, or none if either does not exist or nothing leads
there. Staying on a link takes no time. -/
def way? (n : Network) (first last : LinkId) : Except OffLattice (Option Way) :=
  match n.links[first]?, n.links[last]? with
  | some a, some b =>
    if first = last then .ok (some ⟨0, [first]⟩) else n.wayBy? (n.searchFrom a.head) a b
  | _, _ => .ok none

end Network

/-- The route along a way. Its cost is the travel time in seconds. -/
def Way.route (w : Way) (departure : Time) : Route :=
  ⟨departure, w.travelTime, w.travelTime.toSecs, w.links⟩

/-- A network together with the search from each of its nodes. -/
structure WayTable where
  network : Network
  searches : Array (Thunk Search)

namespace WayTable

/-- The table of a network. -/
def ofNetwork (n : Network) : WayTable where
  network := n
  searches := Array.ofFn fun node : Fin n.nodeCount => Thunk.mk fun _ => n.searchFrom node

/-- The search from a node. -/
def searchFrom (t : WayTable) (node : Nat) : Search :=
  match t.searches[node]? with
  | some search => search.get
  | none => t.network.searchFrom node

/-- The quickest way from one link to another, if the search for it stays on the lattice. -/
def way? (t : WayTable) (first last : LinkId) : Option Way :=
  match t.network.links[first]?, t.network.links[last]? with
  | some a, some b =>
    if first = last then some ⟨0, [first]⟩
    else
      match t.network.wayBy? (t.searchFrom a.head) a b with
      | .ok way => way
      | .error _ => none
  | _, _ => none

/-- Whether the search for the way from one link to another leaves the lattice. -/
def strays (t : WayTable) (first last : LinkId) : Bool :=
  match t.network.links[first]?, t.network.links[last]? with
  | some a, some b => first ≠ last && (t.searchFrom a.head).misses b.tail
  | _, _ => false

/-- The router that takes the quickest way. -/
def router (t : WayTable) : Router where
  route? origin target departure :=
    (t.way? origin.link target.link).map fun way => way.route departure
  strays origin target := t.strays origin.link target.link

/-- The search that a table keeps is the one the network makes. -/
theorem searchFrom_ofNetwork (n : Network) (node : Nat) :
    (ofNetwork n).searchFrom node = n.searchFrom node := by
  unfold searchFrom ofNetwork
  by_cases h : node < n.nodeCount
  · simp [h, Thunk.get]
  · simp [h]

/-- Where the search leaves the lattice there is no way. -/
theorem way?_eq_none_of_strays {t : WayTable} {first last : LinkId}
    (h : t.strays first last = true) : t.way? first last = none := by
  unfold strays at h
  unfold way?
  split at h
  next a b ha hb =>
    simp only [Bool.and_eq_true, decide_eq_true_eq] at h
    have hm := h.2
    simp only [Search.misses, Bool.and_eq_true, Option.isNone_iff_eq_none] at hm
    simp [h.1, Network.wayBy?, Search.misses, hm]
  next => exact absurd h Bool.false_ne_true

end WayTable

end RideDispatch

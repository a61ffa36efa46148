import RideDispatch.Place
import RideDispatch.Time

/-!
# The road network

The nodes of a `Network` stand on a lattice of `columns` by `rows`; directed links join them. The
link from node `a` to node `b` has the number `a * nodes + b`, whether it exists or not, and
adding a link a second time replaces it. `Network.outgoing` lists the links that leave each node in
the order in which they were added.

Positions beyond the lattice are not refused by themselves: a link may lead to one, but nobody can
stand there, and no new link may start there. That is the `OffLattice` fault.
-/

namespace RideDispatch

/-- A position on the lattice: a column and a row. -/
structure Position where
  column : Nat
  row : Nat
deriving DecidableEq, Repr

/-- The measures that all links of a network share. -/
structure NetworkParams where
  linkLengthM : Float := 100.0
  freeSpeedMps : Float := 15.0
  /-- The distance between neighbouring nodes, which counts for coordinates only. -/
  nodeSpacingM : Float := 100.0

/-- A directed link from one node to another. -/
structure Link where
  id : LinkId
  tail : Nat
  head : Nat
  lengthM : Float
  travelTime : Time

/-- A node beyond the lattice was asked to take part. -/
structure OffLattice where
  node : Nat
deriving DecidableEq, Repr

/-- A lattice of nodes with directed links. -/
structure Network where
  columns : Nat
  rows : Nat
  params : NetworkParams
  links : Std.ExtTreeMap LinkId Link
  /-- The links that leave each node. -/
  outgoing : Array (List LinkId)

namespace Network

/-- The nodes of a lattice without any link. -/
def nodesOnly (columns rows : Nat) (params : NetworkParams) : Network where
  columns := columns
  rows := rows
  params := params
  links := ∅
  outgoing := Array.replicate (columns * rows) []

/-- The number of nodes. -/
def nodeCount (n : Network) : Nat := n.columns * n.rows

/-- The node at a position. -/
def nodeAt (n : Network) (p : Position) : Nat := p.column * n.rows + p.row

/-- The identity of the link between two nodes. -/
def linkBetween (n : Network) (tail head : Nat) : LinkId :=
  ⟨(tail * n.nodeCount + head).toUInt64⟩

/-- The identity of the link between two positions. -/
def linkId (n : Network) (tail head : Position) : LinkId :=
  n.linkBetween (n.nodeAt tail) (n.nodeAt head)

/-- The time it takes to drive along a link, rounded to milliseconds. -/
def linkTravelTime (params : NetworkParams) : Time :=
  ⟨(params.linkLengthM / params.freeSpeedMps * 1000.0).round.toUInt64⟩

/-- The link between two nodes, whether or not it belongs to the network. -/
def newLink (n : Network) (tail head : Nat) : Link where
  id := n.linkBetween tail head
  tail := tail
  head := head
  lengthM := n.params.linkLengthM
  travelTime := linkTravelTime n.params

/-- The network with a link from one node to another. -/
def insertLink (n : Network) (tail head : Nat) : Network :=
  let link := n.newLink tail head
  { n with
    links := n.links.insert link.id link
    outgoing :=
      if n.links.contains link.id then n.outgoing
      else n.outgoing.modify tail (· ++ [link.id]) }

/-- Adds a link in one direction. From beyond the lattice it can only replace the link that has
its number. -/
def addOneWay (n : Network) (tail head : Position) : Except OffLattice (LinkId × Network) :=
  if n.nodeAt tail < n.nodeCount || n.links.contains (n.linkId tail head) then
    .ok (n.linkId tail head, n.insertLink (n.nodeAt tail) (n.nodeAt head))
  else .error ⟨n.nodeAt tail⟩

/-- Adds a link in each direction. -/
def addDouble (n : Network) (a b : Position) : Except OffLattice ((LinkId × LinkId) × Network) := do
  let (forth, n) ← n.addOneWay a b
  let (back, n) ← n.addOneWay b a
  return ((forth, back), n)

/-- The network with a link in each direction between two nodes. -/
def insertDouble (n : Network) (a b : Position) : Network :=
  (n.insertLink (n.nodeAt a) (n.nodeAt b)).insertLink (n.nodeAt b) (n.nodeAt a)

/-- The pairs of neighbours of a lattice, each position with the next column and the next row. -/
def neighbours (columns rows : Nat) : List (Position × Position) :=
  (List.range columns).flatMap fun x =>
    (List.range rows).flatMap fun y =>
      (if x + 1 < columns then [(⟨x, y⟩, ⟨x + 1, y⟩)] else []) ++
        if y + 1 < rows then [(⟨x, y⟩, ⟨x, y + 1⟩)] else []

/-- The full lattice: links in both directions between all neighbours. -/
def grid (columns rows : Nat) (params : NetworkParams) : Network :=
  (neighbours columns rows).foldl (fun n pair => n.insertDouble pair.1 pair.2)
    (nodesOnly columns rows params)

/-- The links in the order of their identities. -/
def linkList (n : Network) : List Link := n.links.values

/-- The identities of the links, in ascending order. -/
def linkIds (n : Network) : List LinkId := n.links.keys

/-- The latitude and longitude of the node in the first column and row, in degrees. -/
def originDegrees : Float × Float := (52.52, 13.40)

/-- The length of a degree of latitude in metres. -/
def metersPerDegree : Float := 111195.0

/-- The coordinate of a position, if the spacing of the nodes makes it a finite one. -/
def coordinateAt? (params : NetworkParams) (p : Position) : Option Coordinate :=
  let metersPerDegreeLng := metersPerDegree * (radiansOfDegrees originDegrees.1).cos
  let lat := originDegrees.1 + p.row.toFloat * params.nodeSpacingM / metersPerDegree
  let lng := originDegrees.2 + p.column.toFloat * params.nodeSpacingM / metersPerDegreeLng
  Coordinate.ofDegrees? lat lng

/-- The coordinate of a node of the lattice. -/
def coordinate? (n : Network) (node : Nat) : Except OffLattice (Option Coordinate) :=
  if node < n.nodeCount then .ok (coordinateAt? n.params ⟨node / n.rows, node % n.rows⟩)
  else .error ⟨node⟩

/-- The place of whoever is on a link: the coordinate of its far end. There is none where the link
does not exist or the coordinate is not finite. -/
def place? (n : Network) (link : LinkId) : Except OffLattice (Option Place) :=
  match n.links[link]? with
  | none => .ok none
  | some l => (n.coordinate? l.head).map fun coordinate? => coordinate?.map fun c => ⟨link, c⟩

end Network

end RideDispatch

import RideDispatch.Settings

/-!
# The triangular lattice

The centres of hexagons of one size form a triangular lattice. Its points are the numbers
`a + b · ω`, where `ω` is a turn by a third of a circle, so `1 + ω + ω² = 0`. The lattice that lies
on one face of the globe has its origin in the middle of the face; `Lattice.corner` is the lattice
point in the face's first corner, and the other two corners are that point turned by `ω` and `ω²`.
`Lattice.shares` gives a point's coordinates with respect to the corners, and `Lattice.standing`
reads off them whether it lies inside, on an edge, in a corner or beyond an edge.
-/

namespace RideDispatch.Globe

/-- A point `a + b · ω` of the triangular lattice. -/
structure Point where
  a : Int
  b : Int
deriving DecidableEq, Repr, Hashable

namespace Point

instance : Add Point := ⟨fun p q => ⟨p.a + q.a, p.b + q.b⟩⟩
instance : Neg Point := ⟨fun p => ⟨-p.a, -p.b⟩⟩
instance : Sub Point := ⟨fun p q => ⟨p.a - q.a, p.b - q.b⟩⟩

/-- The point turned about the origin by a third of a circle. -/
def turn (p : Point) : Point := ⟨-p.b, p.a - p.b⟩

/-- The point turned about the origin by a number of thirds of a circle. -/
def turns (p : Point) : Nat → Point
  | 0 => p
  | n + 1 => (p.turns n).turn

/-- The point turned about the origin by a sixth of a circle. -/
def sixth (p : Point) : Point := ⟨p.a - p.b, p.a⟩

/-- The point turned about the origin by a number of sixths of a circle. -/
def sixths (p : Point) : Nat → Point
  | 0 => p
  | n + 1 => (p.sixths n).sixth

/-- The number of steps between two points. -/
def distance (p q : Point) : Nat :=
  let d := p - q
  max d.a.natAbs (max d.b.natAbs (d.a - d.b).natAbs)

/-- The six points next to the origin. -/
def units : List Point := [⟨1, 0⟩, ⟨1, 1⟩, ⟨0, 1⟩, ⟨-1, 0⟩, ⟨-1, -1⟩, ⟨0, -1⟩]

/-- Two sixths of a circle are a third. -/
theorem sixth_sixth (p : Point) : p.sixth.sixth = p.turn := by
  cases p
  simp only [sixth, turn, Point.mk.injEq, and_true]
  omega

/-- Three thirds of a circle are a full turn. -/
theorem turn_turn_turn (p : Point) : p.turn.turn.turn = p := by
  cases p
  simp only [turn, Point.mk.injEq]
  omega

end Point

/-- The lattice on a face. -/
structure Lattice where
  /-- A lattice point on the line from the middle of the face to its first corner. -/
  axis : Point
  /-- How many times as far as `axis` the corner is. -/
  size : Int

/-- Where a lattice point lies, seen from a face. Edges and corners go by their numbers. -/
inductive Standing where
  | inside
  | onEdge (edge : Nat)
  | atCorner (corner : Nat)
  | beyond (edge : Nat)
deriving DecidableEq, Repr

namespace Lattice

/-- The lattice of a resolution. Two steps of resolution divide lengths by seven; an odd step turns
the lattice so that its lines no longer run towards the corners. -/
def ofResolution (r : Resolution) : Lattice :=
  ⟨if r.val % 2 = 0 then ⟨1, 0⟩ else ⟨2, -1⟩, 2 * Nat.pow 7 (r.val / 2)⟩

/-- The lattice point in the first corner of the face. -/
def corner (l : Lattice) : Point := ⟨l.size * l.axis.a, l.size * l.axis.b⟩

/-- A third of the sum of the shares of any point. -/
def norm (l : Lattice) : Int :=
  l.size * (l.axis.a * l.axis.a - l.axis.a * l.axis.b + l.axis.b * l.axis.b)

/-- The share that each corner has in a point. A point lies on the face if no share is negative,
and inside if every share is positive. -/
def shares (l : Lattice) (p : Point) : Int × Int × Int :=
  let x := p.a * (l.axis.a - l.axis.b) + p.b * l.axis.b
  let y := p.b * l.axis.a - p.a * l.axis.b
  (l.norm + 2 * x - y, l.norm + 2 * y - x, l.norm - x - y)

/-- Where a point lies. -/
def standing (l : Lattice) (p : Point) : Standing :=
  let (first, second, third) := l.shares p
  if 0 < first ∧ 0 < second ∧ 0 < third then .inside
  else if third < 0 then .beyond 0
  else if first < 0 then .beyond 1
  else if second < 0 then .beyond 2
  else if second = 0 ∧ third = 0 then .atCorner 0
  else if first = 0 ∧ third = 0 then .atCorner 1
  else if first = 0 ∧ second = 0 then .atCorner 2
  else if third = 0 then .onEdge 0
  else if first = 0 then .onEdge 1
  else .onEdge 2

/-- The three shares of a point add up to the same for all points. -/
theorem shares_sum (l : Lattice) (p : Point) :
    (l.shares p).1 + (l.shares p).2.1 + (l.shares p).2.2 = 3 * l.norm := by
  simp only [shares]
  omega

end Lattice

end RideDispatch.Globe

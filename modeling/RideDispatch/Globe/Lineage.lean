import RideDispatch.Globe.Lattice

/-!
# The lineage of a lattice point

The lattice of each resolution refines the one before it: every point has a parent in the coarser
lattice and is the middle of its parent or one of the six points next to that middle. Following
parents up to resolution zero leads to the base of a point; `Lineage.lead` is the first step away
from the base on the way back down. `parent_middle` says that a point's middle has that point as
its parent.

Points that lie on a face or next to it are where they seem to be. Farther beyond an edge a point
goes by its lineage, and `Lattice.turned` says where it then is: the corners of a face lack a sixth
of the plane, so what descends from a corner on the far side of the missing part is turned by a
sixth. Such points arise only from longitudes of so many turns that a double cannot tell their
direction.
-/

namespace RideDispatch.Globe

namespace Point

/-- The whole number nearest to a seventh. -/
def seventh (n : Int) : Int := (n + 3) / 7

/-- The parent of a point of a resolution greater than zero. -/
def parent (resolution : Nat) (p : Point) : Point :=
  if resolution % 2 = 1 then ⟨seventh (3 * p.a - p.b), seventh (p.a + 2 * p.b)⟩
  else ⟨seventh (2 * p.a + p.b), seventh (3 * p.b - p.a)⟩

/-- The point of a resolution greater than zero that lies where its parent lies. -/
def middle (resolution : Nat) (p : Point) : Point :=
  if resolution % 2 = 1 then ⟨2 * p.a + p.b, 3 * p.b - p.a⟩
  else ⟨3 * p.a - p.b, p.a + 2 * p.b⟩

/-- The middle of a point is a child of it. -/
theorem parent_middle (resolution : Nat) (p : Point) :
    (p.middle resolution).parent resolution = p := by
  obtain ⟨a, b⟩ := p
  unfold parent middle
  split <;> simp only [seventh, Point.mk.injEq] <;> omega

end Point

/-- Where a lattice point comes from. -/
structure Lineage where
  /-- The ancestor of resolution zero. -/
  base : Point
  /-- The first step that leads away from the base, or the origin if none does. -/
  lead : Point
deriving DecidableEq, Repr

namespace Lineage

/-- The lineage of a point of the given resolution. -/
def ofPoint : Nat → Point → Lineage
  | 0, p => ⟨p, ⟨0, 0⟩⟩
  | resolution + 1, p =>
    let parent := p.parent (resolution + 1)
    let line := ofPoint resolution parent
    if line.lead = ⟨0, 0⟩ then { line with lead := p - parent.middle (resolution + 1) } else line

end Lineage

namespace Lattice

/-- A point turned about another one by a number of sixths of a circle. -/
def turnAbout (centre p : Point) (count : Nat) : Point := centre + (p - centre).sixths count

/-- Where a point of the lattice on a face belongs, given its lineage. What descends from the first
or the second corner across the missing sixth of the plane is turned by a sixth towards the face,
and what descends from the middle of the face beyond the first edge of face five is turned by two
thirds. -/
def turned (l : Lattice) (face : Nat) (line : Lineage) (p : Point) : Point :=
  if line = ⟨⟨2, 0⟩, ⟨0, -1⟩⟩ then turnAbout l.corner p 5
  else if line = ⟨⟨0, 2⟩, ⟨-1, 0⟩⟩ then turnAbout (l.corner.turns 1) p 1
  else if face = 5 ∧ line.base = ⟨2, 2⟩ then turnAbout (-(l.corner.turns 2)) p 4
  else p

end Lattice

end RideDispatch.Globe

import RideDispatch.Globe.Cell

/-!
# Regions around a cell

A `Region` holds the cells within a number of steps of a cell, and `Region.contains` tells which
they are. Where the whole region lies inside a face the steps are counted in the lattice;
elsewhere the cells are gathered step by step. `Region.contains_succ` says that a region holds the
smaller ones with the same middle.
-/

namespace RideDispatch.Globe

/-- The cells within some steps of a cell. -/
inductive Region where
  /-- The cells of one face whose lattice points are that near. -/
  | hexagon (centre : Cell) (radius : Nat)
  /-- The cells of a disk. -/
  | disk (cells : Disk)

namespace Region

/-- The number of steps for which a hexagon must stay inside its face, even if it is smaller. -/
def clearance : Nat := 65

/-- The point a number of unit steps away. -/
def stride (p u : Point) (steps : Nat) : Point := ⟨p.a + u.a * steps, p.b + u.b * steps⟩

/-- Whether all cells within a number of steps lie inside one face. A face is convex, so the six
corners of the hexagon decide. -/
def isFlat (l : Lattice) (c : Cell) (radius : Nat) : Bool :=
  Point.units.all fun u => l.standing (stride c.point u radius) = .inside

/-- The cells within a number of steps of a cell. -/
def ofRadius (l : Lattice) (centre : Cell) (radius : Nat) : Region :=
  if isFlat l centre (max radius clearance) then .hexagon centre radius
  else .disk (Disk.ofRadius l centre radius)

/-- Whether a cell belongs to a region. -/
def contains (r : Region) (c : Cell) : Bool :=
  match r with
  | hexagon centre radius => c.face = centre.face && c.point.distance centre.point ≤ radius
  | disk d => d.seen.contains c

/-- A region holds the one that is a step smaller, as far as the clearance goes. -/
theorem contains_succ {l : Lattice} {centre c : Cell} {radius : Nat} (h : radius < clearance)
    (hc : (ofRadius l centre radius).contains c = true) :
    (ofRadius l centre (radius + 1)).contains c = true := by
  have hmax : max radius clearance = max (radius + 1) clearance := by omega
  by_cases hf : isFlat l centre (max (radius + 1) clearance) = true
  · simp only [ofRadius, hmax, hf, if_true, contains, Bool.and_eq_true, decide_eq_true_eq] at *
    exact ⟨hc.1, Nat.le_succ_of_le hc.2⟩
  · simp only [ofRadius, hmax, hf, if_false, contains, Bool.false_eq_true] at *
    exact ((Disk.coherent_ofRadius l centre (radius + 1)).seen_iff c).2
      (Disk.cells_subset l centre radius
        (((Disk.coherent_ofRadius l centre radius).seen_iff c).1 hc))

end Region

end RideDispatch.Globe

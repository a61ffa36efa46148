import RideDispatch.Globe.Face
import Std.Data.HashSet

/-!
# Cells

A cell of the globe's grid is a point of the lattice on a face. A point on an edge belongs to two
faces and a corner to five; `Cell.normalize` takes the first of them, so equal cells are equal
values. Every cell has six neighbours, except that a corner, where one sixth of the plane is
missing, has five.

`Disk.ofRadius` holds the cells within a number of steps of a cell: `Disk.nodup_cells` says that
they are distinct, and `Disk.cells_subset` that a larger disk holds the smaller one.
-/

namespace RideDispatch.Globe

/-- A cell of the grid: a point of the lattice on a face. -/
structure Cell where
  face : Nat
  point : Point
deriving DecidableEq, Repr, Hashable

namespace Cell

/-- Cells go by their faces, then by their points. -/
instance : Ord Cell :=
  ⟨compareLex (compareOn fun c => c.face)
    (compareLex (compareOn fun c => c.point.a) (compareOn fun c => c.point.b))⟩

instance : Std.TransOrd Cell :=
  inferInstanceAs (Std.TransCmp (compareLex (compareOn fun c : Cell => c.face)
    (compareLex (compareOn fun c : Cell => c.point.a) (compareOn fun c : Cell => c.point.b))))

instance : Std.LawfulEqOrd Cell where
  eq_of_compare := fun {c d} h => by
    have h : (compare c.face d.face).then
      ((compare c.point.a d.point.a).then (compare c.point.b d.point.b)) = .eq := h
    rw [Ordering.then_eq_eq, Ordering.then_eq_eq] at h
    obtain ⟨hf, ha, hb⟩ := h
    have hf := Std.LawfulEqOrd.eq_of_compare hf
    have ha := Std.LawfulEqOrd.eq_of_compare ha
    have hb := Std.LawfulEqOrd.eq_of_compare hb
    obtain ⟨cf, ca, cb⟩ := c
    obtain ⟨df, da, db⟩ := d
    subst hf ha hb
    rfl

/-- The faces around a corner, each with the corner as a point of its lattice: crossing the edge
that starts there leads from one to the next. -/
def around (l : Lattice) : Nat → Nat → Nat → List Cell
  | 0, _, _ => []
  | count + 1, face, corner =>
    let (beyond, there) := acrossEdge face corner
    ⟨face, l.corner.turns corner⟩ :: around l count beyond ((there + 1) % 3)

/-- The cells that are one cell of the grid, seen from each face it lies on. -/
def views (l : Lattice) (c : Cell) : List Cell :=
  match l.standing c.point with
  | .atCorner corner => around l 5 c.face corner
  | .onEdge edge =>
    let (face, point) := cross l c.face edge c.point
    [c, ⟨face, point⟩]
  | .inside | .beyond _ => [c]

/-- The view of a cell from the first of its faces. -/
def normalize (l : Lattice) (c : Cell) : Cell :=
  (views l c).foldl (fun best d => if d.face < best.face then d else best) c

/-- The cell of a lattice point that may lie beyond an edge of its face. -/
def settle (l : Lattice) (c : Cell) : Cell :=
  match l.standing c.point with
  | .inside => c
  | .onEdge _ | .atCorner _ => normalize l c
  | .beyond edge =>
    let (face, point) := cross l c.face edge c.point
    normalize l ⟨face, point⟩

/-- The cells next to a corner that lie on a face around it. -/
def besideCorner (l : Lattice) (view : Cell) : List Cell :=
  Point.units.filterMap fun u =>
    match l.standing (view.point + u) with
    | .beyond _ => none
    | _ => some (normalize l ⟨view.face, view.point + u⟩)

/-- The cells next to a cell. -/
def neighbours (l : Lattice) (c : Cell) : List Cell :=
  match l.standing c.point with
  | .atCorner corner => (around l 5 c.face corner).flatMap (besideCorner l)
  | _ => Point.units.map fun u => settle l ⟨c.face, c.point + u⟩

end Cell

/-- The cells within some steps of a cell. -/
structure Disk where
  cells : List Cell
  /-- The cells that were reached with the last step. -/
  rim : List Cell
  seen : Std.HashSet Cell

namespace Disk

/-- A single cell. -/
def single (c : Cell) : Disk := ⟨[c], [c], (∅ : Std.HashSet Cell).insert c⟩

/-- Adds a cell to the rim, unless it belongs to the disk. -/
def add (d : Disk) (c : Cell) : Disk :=
  if d.seen.contains c then d else ⟨c :: d.cells, c :: d.rim, d.seen.insert c⟩

/-- The disk with the neighbours of its rim. -/
def grow (l : Lattice) (d : Disk) : Disk :=
  (d.rim.flatMap (Cell.neighbours l)).foldl add { d with rim := [] }

/-- The cells within a number of steps. -/
def ofRadius (l : Lattice) (origin : Cell) : Nat → Disk
  | 0 => single origin
  | radius + 1 => grow l (ofRadius l origin radius)

/-- The seen cells of a disk are its cells, and those are distinct. -/
structure Coherent (d : Disk) : Prop where
  nodup : d.cells.Nodup
  seen_iff : ∀ c, d.seen.contains c = true ↔ c ∈ d.cells

theorem Coherent.single (c : Cell) : (Disk.single c).Coherent where
  nodup := by simp [Disk.single]
  seen_iff := fun e => by
    simp only [Disk.single, Std.HashSet.contains_insert, Std.HashSet.contains_empty, Bool.or_false,
      beq_iff_eq, List.mem_singleton]
    exact eq_comm

theorem Coherent.add {d : Disk} (h : d.Coherent) (c : Cell) : (d.add c).Coherent := by
  unfold Disk.add
  split
  next => exact h
  next hc =>
    have hc : c ∉ d.cells := fun hm => hc ((h.seen_iff c).2 hm)
    refine ⟨List.nodup_cons.2 ⟨hc, h.nodup⟩, fun e => ?_⟩
    simp only [Std.HashSet.contains_insert, Bool.or_eq_true, beq_iff_eq, h.seen_iff e,
      List.mem_cons]
    exact or_congr_left eq_comm

theorem Coherent.foldl_add {d : Disk} (h : d.Coherent) (cs : List Cell) :
    (cs.foldl Disk.add d).Coherent := by
  induction cs generalizing d with
  | nil => exact h
  | cons c rest ih => exact ih (h.add c)

theorem coherent_ofRadius (l : Lattice) (origin : Cell) (radius : Nat) :
    (ofRadius l origin radius).Coherent := by
  induction radius with
  | zero => exact Coherent.single origin
  | succ n ih =>
    exact Coherent.foldl_add (d := { ofRadius l origin n with rim := [] })
      ⟨ih.nodup, ih.seen_iff⟩ _

/-- The cells of a disk are distinct. -/
theorem nodup_cells (l : Lattice) (origin : Cell) (radius : Nat) :
    (ofRadius l origin radius).cells.Nodup :=
  (coherent_ofRadius l origin radius).nodup

theorem cells_subset_add (d : Disk) (c : Cell) : d.cells ⊆ (d.add c).cells := by
  unfold add
  split
  next => exact fun _ h => h
  next => exact fun _ h => List.mem_cons_of_mem _ h

theorem cells_subset_foldl_add (d : Disk) (cs : List Cell) :
    d.cells ⊆ (cs.foldl add d).cells := by
  induction cs generalizing d with
  | nil => exact fun _ h => h
  | cons c rest ih => exact fun _ h => ih (d.add c) (cells_subset_add d c h)

/-- One more step keeps every cell of a disk. -/
theorem cells_subset (l : Lattice) (origin : Cell) (radius : Nat) :
    (ofRadius l origin radius).cells ⊆ (ofRadius l origin (radius + 1)).cells :=
  cells_subset_foldl_add { ofRadius l origin radius with rim := [] } _

end Disk

end RideDispatch.Globe

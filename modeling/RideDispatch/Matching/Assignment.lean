/-!
# Full assignments of greatest weight

`Assignment.solve` gives each row of a matrix a column of its own so that the sum of the weights is
as great as possible; there must be at least as many columns as rows. Every row and every column
carries a label, and the labels of a row and a column are never less in sum than the weight between
them. Row after row, a tree of alternating edges without slack is grown from the row until it
reaches a free column; where no such edge is left, the labels are moved by the least slack.
-/

namespace RideDispatch

/-- A weight for each row and column. -/
abbrev WeightMatrix (n m : Nat) := Vector (Vector Int m) n

/-- The labels of rows and columns, and which of them are joined so far. -/
structure Assignment (n m : Nat) where
  rowLabel : Vector Int n
  columnLabel : Vector Int m
  columnOf : Vector (Option (Fin m)) n
  rowOf : Vector (Option (Fin n)) m

/-- A tree of alternating edges. -/
structure Assignment.Tree (n m : Nat) where
  rows : List (Fin n)
  /-- The row from which each column of the tree was reached. -/
  parent : Vector (Option (Fin n)) m
  /-- The least slack between each column outside the tree and a row of the tree. -/
  slack : Vector Int m
  /-- The row of the tree with that slack. -/
  slackRow : Vector (Fin n) m

namespace Assignment

variable {n m : Nat}

/-- The greatest of some weights. -/
def greatest (weights : Vector Int m) : Int :=
  match weights.toList with
  | [] => 0
  | w :: rest => rest.foldl max w

/-- Nothing is joined; each row is labelled with its greatest weight. -/
def start (w : WeightMatrix n m) : Assignment n m where
  rowLabel := w.map greatest
  columnLabel := Vector.replicate m 0
  columnOf := Vector.replicate n none
  rowOf := Vector.replicate m none

/-- How much the labels of a row and a column exceed the weight between them. -/
def slackOf (w : WeightMatrix n m) (a : Assignment n m) (x : Fin n) (y : Fin m) : Int :=
  a.rowLabel[x] + a.columnLabel[y] - w[x][y]

namespace Tree

/-- The tree that consists of a row. -/
def root (w : WeightMatrix n m) (a : Assignment n m) (x : Fin n) : Tree n m where
  rows := [x]
  parent := Vector.replicate m none
  slack := Vector.ofFn fun y => a.slackOf w x y
  slackRow := Vector.replicate m x

/-- The first column outside the tree with the least slack. -/
def nextColumn? (t : Tree n m) : Option (Fin m) :=
  (List.finRange m).foldl
    (fun best y =>
      if t.parent[y].isSome then best
      else
        match best with
        | none => some y
        | some b => if t.slack[y] < t.slack[b] then some y else best)
    none

/-- The tree after the labels have moved by some slack. -/
def lessSlack (t : Tree n m) (delta : Int) : Tree n m :=
  { t with
    slack := Vector.ofFn fun y => if t.parent[y].isSome then t.slack[y] else t.slack[y] - delta }

/-- The tree with a column, reached along the edge of its least slack. -/
def addColumn (t : Tree n m) (y : Fin m) : Tree n m :=
  { t with parent := t.parent.set y (some t.slackRow[y]) }

/-- The tree with a row, which may bring columns outside the tree nearer. -/
def addRow (w : WeightMatrix n m) (a : Assignment n m) (t : Tree n m) (x : Fin n) : Tree n m :=
  let nearer (y : Fin m) : Bool := t.parent[y].isNone && a.slackOf w x y < t.slack[y]
  { t with
    rows := x :: t.rows
    slack := Vector.ofFn fun y => if nearer y then a.slackOf w x y else t.slack[y]
    slackRow := Vector.ofFn fun y => if nearer y then x else t.slackRow[y] }

end Tree

/-- The labels after a move by some slack: down for the rows of a tree, up for its columns. -/
def relabel (a : Assignment n m) (t : Tree n m) (delta : Int) : Assignment n m :=
  { a with
    rowLabel := Vector.ofFn fun x =>
      if t.rows.contains x then a.rowLabel[x] - delta else a.rowLabel[x]
    columnLabel := Vector.ofFn fun y =>
      if t.parent[y].isSome then a.columnLabel[y] + delta else a.columnLabel[y] }

/-- Grows a tree until it has reached a free column. The bound is on the number of columns that
may be added. -/
def grow (w : WeightMatrix n m) :
    Nat → Assignment n m → Tree n m → Option (Assignment n m × Tree n m × Fin m)
  | 0, _, _ => none
  | bound + 1, a, t =>
    match t.nextColumn? with
    | none => none
    | some y =>
      let delta := t.slack[y]
      let a := if 0 < delta then a.relabel t delta else a
      let t := if 0 < delta then t.lessSlack delta else t
      let t := t.addColumn y
      match a.rowOf[y] with
      | none => some (a, t, y)
      | some x => grow w bound a (t.addRow w a x)

/-- Joins a column with the row it was reached from, and the column that this row gives up with the
row that one was reached from, up to the root. The bound is on the number of rows. -/
def augment (t : Tree n m) : Nat → Assignment n m → Fin m → Assignment n m
  | 0, a, _ => a
  | bound + 1, a, y =>
    match t.parent[y] with
    | none => a
    | some x =>
      let joined := { a with
        columnOf := a.columnOf.set x (some y)
        rowOf := a.rowOf.set y (some x) }
      match a.columnOf[x] with
      | none => joined
      | some given => augment t bound joined given

/-- Joins one more row. -/
def addRow (w : WeightMatrix n m) (a : Assignment n m) (x : Fin n) : Assignment n m :=
  match grow w m a (Tree.root w a x) with
  | none => a
  | some (a, t, y) => augment t n a y

/-- The column of each row in an assignment of greatest weight. -/
def solve (w : WeightMatrix n m) : Vector (Option (Fin m)) n :=
  ((List.finRange n).foldl (addRow w) (start w)).columnOf

end Assignment

end RideDispatch

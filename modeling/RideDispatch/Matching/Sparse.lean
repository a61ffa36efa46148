import RideDispatch.Matching.Assignment

/-!
# Matchings of least cost

`Matching.solve` pairs rows with columns along listed edges: as many pairs as possible, and among
those matchings one of least total cost. To that end every edge is worth a reward that no saving of
cost can outweigh, less its cost, and every other place of the matrix is worth less than any
matching along edges. Who finds the assignment of greatest worth is a `Solver`; the program takes
`Assignment.solve`.
-/

namespace RideDispatch.Matching

/-- Whatever gives the rows of a matrix of weights columns of their own. -/
class Solver where
  columnOf {n m : Nat} : WeightMatrix n m → Vector (Option (Fin m)) n

instance : Solver := ⟨Assignment.solve⟩

/-- A possible pair with its cost in seconds. -/
structure Edge where
  row : Nat
  column : Nat
  cost : Float

/-- The greatest cost that counts, one day in milliseconds. -/
def maxCostMs : Int := 86400000

/-- A cost in whole milliseconds. What is negative or no number counts as nothing. -/
def costMs (cost : Float) : Int :=
  if cost.isNaN || cost ≤ 0.0 then 0 else min (cost * 1000.0).round.toUInt64.toNat maxCostMs

/-- A possible pair with its cost in milliseconds. -/
structure Entry where
  row : Nat
  column : Nat
  cost : Int
deriving DecidableEq, Repr

/-- The edges within a matrix, with their costs in milliseconds. -/
def entries (rows columns : Nat) (edges : List Edge) : List Entry :=
  (edges.filter fun e => e.row < rows ∧ e.column < columns).map fun e =>
    ⟨e.row, e.column, costMs e.cost⟩

/-- The greatest cost among some entries. -/
def maxCost (es : List Entry) : Int := es.foldl (fun best e => max best e.cost) 0

/-- What an edge is worth before its cost. -/
def reward (es : List Entry) (pairs : Nat) : Int := (maxCost es + 1) * (pairs + 1)

/-- What a place without an edge is worth. -/
def infeasible (es : List Entry) (pairs : Nat) : Int := -(reward es pairs * (pairs + 1))

/-- The matrix of what each place is worth. Of several edges in one place the last one counts. -/
def worth (n m : Nat) (es : List Entry) : WeightMatrix n m :=
  es.foldl
    (fun w e =>
      if h : e.row < n ∧ e.column < m then
        w.set e.row (w[e.row].set e.column (reward es (min n m) - e.cost))
      else w)
    (Vector.replicate n (Vector.replicate m (infeasible es (min n m))))

/-- The pairs of an assignment of greatest worth that run along edges. -/
def pairs [Solver] (n m : Nat) (es : List Entry) : List (Nat × Nat) :=
  let w := worth n m es
  let columnOf := Solver.columnOf w
  (List.finRange n).filterMap fun x =>
    (columnOf.get x).bind fun y =>
      if infeasible es (min n m) < (w.get x).get y then some (x.val, y.val) else none

/-- The pairs of a matching with the greatest number of pairs and the least cost, in the order of
their rows. The smaller side of the matrix is assigned. -/
def solve [Solver] (rows columns : Nat) (edges : List Edge) : List (Nat × Nat) :=
  let es := entries rows columns edges
  if es.isEmpty then []
  else if columns < rows then
    let turned := es.map fun e => ⟨e.column, e.row, e.cost⟩
    ((pairs columns rows turned).map Prod.swap).mergeSort fun a b => a.1 ≤ b.1
  else pairs rows columns es

end RideDispatch.Matching

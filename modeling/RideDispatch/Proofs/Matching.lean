import RideDispatch.Matching.Sparse
import RideDispatch.Proofs.Labelling

/-!
# Disjoint pairs

What is proved of matchings is proved for any solver that gives no column to two rows (`DistinctSolver`) or, in
addition, finds assignments of greatest weight (`LawfulSolver`), as `Assignment.solve` does. The former is enough
for no two of the pairs of a matching to share a row or a column (`Matching.solve_disjoint`).
-/

namespace RideDispatch.Matching

/-- Where there are enough columns the solver gives none of them to two rows. -/
class DistinctSolver [Solver] : Prop where
  distinct {n m : Nat} (w : WeightMatrix n m) : n ≤ m → ∀ x x' y,
    (Solver.columnOf w).get x = some y → (Solver.columnOf w).get x' = some y → x = x'

/-- Where there are enough columns the solver gives every row one of its own, and no other way to give every
row a column of its own weighs more. -/
class LawfulSolver [Solver] : Prop where
  greatest {n m : Nat} (w : WeightMatrix n m) : n ≤ m →
    ∃ f : Fin n → Fin m, f.Injective ∧ (∀ x, (Solver.columnOf w).get x = some (f x)) ∧
      ∀ g : Fin n → Fin m, g.Injective → ∑ x, (w.get x).get (g x) ≤ ∑ x, (w.get x).get (f x)

instance : LawfulSolver := ⟨Assignment.solve_greatest⟩

instance [Solver] [LawfulSolver] : DistinctSolver where
  distinct w enough x x' y first second := by
    obtain ⟨f, injective, joined, _⟩ := LawfulSolver.greatest w enough
    rw [joined x] at first
    rw [joined x'] at second
    exact injective ((Option.some.inj first).trans (Option.some.inj second).symm)

/-- The pairs share neither a row nor a column. -/
def Apart (p q : Nat × Nat) : Prop := p.1 ≠ q.1 ∧ p.2 ≠ q.2

variable [Solver] [DistinctSolver]

lemma pairs_disjoint {n m : Nat} {es : List Entry} (enough : n ≤ m) : (pairs n m es).Pairwise Apart := by
  unfold pairs
  simp only
  rw [List.pairwise_filterMap]
  refine (List.nodup_finRange n).imp ?_
  intro x x' ne p found p' found'
  obtain ⟨y, column, chosen⟩ := Option.bind_eq_some_iff.mp found
  obtain ⟨y', column', chosen'⟩ := Option.bind_eq_some_iff.mp found'
  split at chosen
  · split at chosen'
    · cases chosen
      cases chosen'
      refine ⟨fun same => ne (Fin.ext same), fun same => ?_⟩
      obtain rfl := Fin.ext same
      exact ne (DistinctSolver.distinct _ enough x x' y column column')
    · cases chosen'
  · cases chosen

/-- No two pairs of a matching share a row or a column. -/
theorem solve_disjoint {rows columns : Nat} {edges : List Edge} :
    (solve rows columns edges).Pairwise Apart := by
  unfold solve
  simp only
  split
  · exact .nil
  · split
    · -- there are more rows than columns, so the matrix is turned
      rename_i more
      have turned : ((pairs columns rows ((entries rows columns edges).map fun e =>
          ⟨e.column, e.row, e.cost⟩)).map Prod.swap).Pairwise Apart := by
        rw [List.pairwise_map]
        exact (pairs_disjoint (Nat.le_of_lt more)).imp And.symm
      have apart_comm : ∀ {p q : Nat × Nat}, Apart p q → Apart q p :=
        fun apart => ⟨apart.1.symm, apart.2.symm⟩
      exact ((List.mergeSort_perm _ _).pairwise_iff apart_comm).mpr turned
    · rename_i enough
      exact pairs_disjoint (Nat.not_lt.mp enough)

end RideDispatch.Matching

import RideDispatch.Proofs.Optimum

/-!
# Matchings along listed edges

What `Matching.solve` answers to a list of edges, said of the list itself: it may hold edges outside the
matrix and several edges for one pair, and its costs may be any doubles. The pairs that an edge within the
matrix is listed for are a graph (`listed`), in which the last edge of a pair sets the cost. The answer is a
best matching of that graph, in the order of its rows (`solve_exact`), whatever lawful solver finds it. The
numbers of this library have no greatest one; the statement also says that machine words do just as well as
long as they hold the products (`fitsWords`), as they do for hundreds of thousands of pairs
(`reward_le_maxWord`).
-/

namespace RideDispatch.Matching

variable {rows columns n m : Nat} {edges : List Edge} {es : List Entry} {pair : Nat × Nat}

/-! ## Listed edges -/

/-- The last edge that is listed for a pair. -/
def lastEdge? (edges : List Edge) (pair : Nat × Nat) : Option Edge :=
  edges.reverse.find? fun e => e.row = pair.1 ∧ e.column = pair.2

/-- The graph of the pairs within a matrix for which an edge is listed. -/
def listed (rows columns : Nat) (edges : List Edge) : Graph (Nat × Nat) Nat Nat where
  edge pair := pair.1 < rows ∧ pair.2 < columns ∧ ∃ e ∈ edges, e.row = pair.1 ∧ e.column = pair.2
  left := Prod.fst
  right := Prod.snd
  cost pair := (lastEdge? edges pair).elim 0 fun e => costMs e.cost

lemma isSome_lastEdge? : (lastEdge? edges pair).isSome ↔ ∃ e ∈ edges, e.row = pair.1 ∧ e.column = pair.2 := by
  unfold lastEdge?
  rw [List.find?_isSome]
  simp only [List.mem_reverse, decide_eq_true_eq]

/-- The entry of a pair within the matrix is that of the last edge for it. -/
lemma entryOf?_entries (inside : pair.1 < rows ∧ pair.2 < columns) :
    entryOf? (entries rows columns edges) pair =
      (lastEdge? edges pair).map fun e => ⟨e.row, e.column, costMs e.cost⟩ := by
  unfold entryOf? entryAt? entries lastEdge?
  rw [← List.map_reverse, List.find?_map, ← List.filter_reverse, List.find?_filter]
  congr 2
  funext e
  -- an edge for the pair is in the matrix because the pair is
  by_cases own : e.row = pair.1 ∧ e.column = pair.2
  · simp [own, inside]
  · simp [own]

/-- The entry of a pair within the matrix, if an edge is listed for it. -/
lemma entryOf?_of_listed (edge : (listed rows columns edges).edge pair) :
    entryOf? (entries rows columns edges) pair =
      some ⟨pair.1, pair.2, (listed rows columns edges).cost pair⟩ := by
  obtain ⟨row, column, some_⟩ := edge
  obtain ⟨e, last⟩ := Option.isSome_iff_exists.mp (isSome_lastEdge?.mpr some_)
  have own : e.row = pair.1 ∧ e.column = pair.2 := by simpa using List.find?_some last
  have cost : (listed rows columns edges).cost pair = costMs e.cost := by
    show (lastEdge? edges pair).elim 0 _ = _
    rw [last]
    rfl
  rw [entryOf?_entries ⟨row, column⟩, last, Option.map_some, own.1, own.2, cost]

lemma listed_of_isSome (some_ : (entryOf? (entries rows columns edges) pair).isSome) :
    (listed rows columns edges).edge pair := by
  obtain ⟨entry, found⟩ := Option.isSome_iff_exists.mp some_
  obtain ⟨member, row, column⟩ := of_entryAt? found
  have inside := (of_mem_entries member).1
  rw [row, column] at inside
  rw [entryOf?_entries inside, Option.isSome_map] at some_
  exact ⟨inside.1, inside.2, isSome_lastEdge?.mp some_⟩

/-- The listed pairs are part of the graph of entries. -/
lemma embeds_listed : (listed rows columns edges).Embeds (graph (entries rows columns edges))
    fun pair => ⟨pair.1, pair.2, (listed rows columns edges).cost pair⟩ where
  edge _ edge := entryOf?_of_listed edge
  cost _ _ := rfl
  left _ _ _ _ := Iff.rfl
  right _ _ _ _ := Iff.rfl

/-- The answer is a best matching of what is listed. -/
lemma solve_listed [Solver] [LawfulSolver] : (listed rows columns edges).IsBest (solve rows columns edges) := by
  obtain ⟨best, some_⟩ := solve_best rows columns edges
  have edge : ∀ pair ∈ solve rows columns edges, (listed rows columns edges).edge pair :=
    fun pair member => listed_of_isSome (some_ pair member)
  apply embeds_listed.isBest edge
  rw [← List.filterMap_eq_map]
  exact (List.filterMap_congr fun pair member => entryOf?_of_listed (edge pair member)) ▸ best

/-! ## The order of the answer -/

lemma pairs_ascending [Solver] : (pairs n m es).Pairwise fun p q => p.1 < q.1 := by
  have rows_ : (List.finRange n).Pairwise fun x x' => x.val < x'.val := by
    simpa using List.pairwise_lt_finRange n
  unfold pairs
  simp only
  rw [List.pairwise_filterMap]
  apply rows_.imp
  intro x x' before p found p' found'
  obtain ⟨y, _, chosen⟩ := Option.bind_eq_some_iff.mp found
  obtain ⟨y', _, chosen'⟩ := Option.bind_eq_some_iff.mp found'
  split at chosen
  · split at chosen'
    · cases chosen
      cases chosen'
      exact before
    · cases chosen'
  · cases chosen

/-- The rows of the answer ascend, and none comes twice. -/
lemma solve_ascending [Solver] [DistinctSolver] : (solve rows columns edges).Pairwise fun p q => p.1 < q.1 := by
  unfold solve
  simp only
  split
  · exact .nil
  · split
    · -- the pairs of the turned matrix are sorted, and no row is in two of them
      rename_i some_ more
      have apart : (solve rows columns edges).Pairwise Apart := solve_disjoint
      unfold solve at apart
      simp only [if_neg some_, if_pos more] at apart
      have sorted (l : List (Nat × Nat)) :
          (l.mergeSort fun a b => decide (a.1 ≤ b.1)).Pairwise fun a b => decide (a.1 ≤ b.1) = true :=
        List.pairwise_mergeSort (fun a b c first second => by simp only [decide_eq_true_eq] at *; omega)
          (fun a b => by simp only [Bool.or_eq_true, decide_eq_true_eq]; omega) l
      refine (apart.and (sorted _)).imp ?_
      rintro p q ⟨apart, before⟩
      exact lt_of_le_of_ne (of_decide_eq_true before) apart.1
    · exact pairs_ascending

/-! ## Words -/

/-- The greatest number in a signed machine word. -/
def maxWord : Int := 9223372036854775807

/-- A product in a machine word: it stops at the ends of the word. -/
def wordProduct (a b : Int) : Int := max (-maxWord - 1) (min (a * b) maxWord)

lemma wordProduct_eq {a b : Int} (nonneg : 0 ≤ a * b) (fits : a * b ≤ maxWord) :
    wordProduct a b = a * b := by
  unfold wordProduct
  rw [min_eq_left fits]
  apply max_eq_right
  unfold maxWord
  omega

/-- What a matrix is filled with, in machine words. -/
structure FitsWords (es : List Entry) (pairs : Nat) : Prop where
  reward : wordProduct (maxCost es + 1) (pairs + 1) = reward es pairs
  infeasible : -wordProduct (Matching.reward es pairs) (pairs + 1) = infeasible es pairs
  worth : ∀ e ∈ es, 0 < Matching.reward es pairs - e.cost ∧ Matching.reward es pairs - e.cost ≤ maxWord

/-- Where the greater of the two products fits in a word, no number has to stop at its end. -/
lemma fitsWords {pairs : Nat} (nonneg : ∀ e ∈ es, 0 ≤ e.cost) (fits : reward es pairs * (pairs + 1) ≤ maxWord) :
    FitsWords es pairs := by
  obtain ⟨_, above, _⟩ := maxCost_lt_reward es pairs
  obtain ⟨least, bound⟩ := le_maxCost es
  have count : (1 : Int) ≤ pairs + 1 := by omega
  have small : reward es pairs ≤ maxWord := by
    calc
      reward es pairs = reward es pairs * 1 := (mul_one _).symm
      _ ≤ reward es pairs * (pairs + 1) := mul_le_mul_of_nonneg_left count (by omega)
      _ ≤ maxWord := fits
  constructor
  case reward =>
    apply wordProduct_eq
    · exact mul_nonneg (by omega) (by omega)
    · exact small
  case infeasible =>
    rw [wordProduct_eq (mul_nonneg (by omega) (by omega)) fits]
    rfl
  case worth =>
    intro e member
    have low := nonneg e member
    have high := bound e member
    constructor
    · omega
    · omega

/-- With fewer pairs than this a word holds the products, whatever the costs. -/
def pairsPerWord : Nat := 326729

lemma maxCost_le {bound : Int} (nonneg : 0 ≤ bound) (all : ∀ e ∈ es, e.cost ≤ bound) : maxCost es ≤ bound := by
  have fold : ∀ (es : List Entry) (best : Int), best ≤ bound → (∀ e ∈ es, e.cost ≤ bound) →
      es.foldl (fun best e => max best e.cost) best ≤ bound := by
    intro es
    induction es with
    | nil => exact fun _ low _ => low
    | cons e es ih =>
      intro best low all
      obtain ⟨first, all⟩ := List.forall_mem_cons.mp all
      exact ih (max best e.cost) (max_le low first) all
  exact fold es 0 nonneg all

lemma costMs_le (cost : Float) : costMs cost ≤ maxCostMs := by
  unfold costMs
  split
  · decide
  · exact min_le_right _ _

lemma reward_le_maxWord {pairs : Nat} (all : ∀ e ∈ es, e.cost ≤ maxCostMs) (few : pairs < pairsPerWord) :
    reward es pairs * (pairs + 1) ≤ maxWord := by
  have greatest : maxCost es ≤ maxCostMs := maxCost_le (by decide) all
  have count : (pairs : Int) + 1 ≤ pairsPerWord := by exact_mod_cast few
  have positive : (0 : Int) ≤ pairs + 1 := by omega
  have square : ((pairs : Int) + 1) * (pairs + 1) ≤ pairsPerWord * pairsPerWord :=
    mul_le_mul count count positive (by decide)
  calc
    reward es pairs * (pairs + 1) = (maxCost es + 1) * ((pairs + 1) * (pairs + 1)) := by
      unfold reward
      ring
    _ ≤ (maxCostMs + 1) * (pairsPerWord * pairsPerWord) :=
      mul_le_mul (by omega) square (mul_nonneg positive positive) (by decide)
    _ ≤ maxWord := by decide

/-- Words hold what a matrix of listed edges is filled with as long as they hold the products, and for so many
pairs they do. -/
lemma entries_fit (rows columns pairs : Nat) (edges : List Edge) :
    let es := entries rows columns edges
    (reward es pairs * (pairs + 1) ≤ maxWord → FitsWords es pairs) ∧
      (pairs < pairsPerWord → reward es pairs * (pairs + 1) ≤ maxWord) := by
  intro es
  constructor
  · exact fitsWords fun e member => (of_mem_entries member).2
  · refine reward_le_maxWord ?_
    intro e member
    obtain ⟨edge, _, rfl⟩ := List.mem_map.mp member
    exact costMs_le edge.cost

/-- The answer to any list of edges, whatever their order and their costs and however often a pair is listed:
its rows ascend, and it is a matching of listed edges within the matrix that has as many pairs as any and, of
those with so many, the least sum of costs, where the last edge for a pair sets its cost in milliseconds.
Machine words give the same as long as they hold the products, as they do unless there are very many pairs. -/
theorem solve_exact [Solver] [LawfulSolver] (rows columns : Nat) (edges : List Edge) :
    (solve rows columns edges).Pairwise (fun p q => p.1 < q.1) ∧
    (listed rows columns edges).IsBest (solve rows columns edges) ∧
    let es := entries rows columns edges
    let pairs := min rows columns
    (reward es pairs * (pairs + 1) ≤ maxWord → FitsWords es pairs) ∧
      (pairs < pairsPerWord → reward es pairs * (pairs + 1) ≤ maxWord) :=
  ⟨solve_ascending, solve_listed, entries_fit rows columns _ edges⟩

/-- What is negative or no number costs nothing, the last of several edges counts, and one outside the matrix does
not. -/
theorem solve_exact_freeEdges :
    let edges : List Edge :=
      [⟨0, 0, 0.0 / 0.0⟩, ⟨1, 0, 0.0⟩, ⟨0, 1, -1.0⟩, ⟨2, 0, 1.0⟩, ⟨1, 0, -1.0 / 0.0⟩]
    solve 2 2 edges = [(0, 1), (1, 0)] ∧ (listed 2 2 edges).IsBest [(0, 1), (1, 0)] ∧
      FitsWords (entries 2 2 edges) 2 := by
  intro edges
  have answer : solve 2 2 edges = [(0, 1), (1, 0)] := by decide +kernel
  obtain ⟨_, best, fits, small⟩ := solve_exact 2 2 edges
  exact ⟨answer, answer ▸ best, fits (small (by decide))⟩

end RideDispatch.Matching

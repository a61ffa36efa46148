import Mathlib.Algebra.Order.BigOperators.Group.List
import Mathlib.Logic.Equiv.Fintype
import Mathlib.Data.List.Perm.Subperm
import Mathlib.Tactic.Linarith
import Mathlib.Tactic.Ring
import RideDispatch.Proofs.Matching

/-!
# Matchings of least cost

A matching of a bipartite graph is `IsBest` if no other one has more edges and none with as many edges
costs less. `Matching.solve` finds such a matching of the edges that it is given (`solve_best`): the
entries of a matching, each of which gains the reward less its cost over a place without an entry, weigh
as much as the whole assignment that they are read from (`sum_worth`), every matching is part of an
assignment of all rows (`exists_extension`), and one edge more outweighs all costs (`reward_dominates`).
-/

namespace RideDispatch.Matching

/-- A bipartite graph whose edges have a cost. -/
structure Graph (ε κ ι : Type) where
  edge : ε → Prop
  left : ε → κ
  right : ε → ι
  cost : ε → Int

namespace Graph

variable {ε κ ι ε' κ' ι' : Type} {G : Graph ε κ ι} {H : Graph ε' κ' ι'} {chosen other : List ε}

/-- Edges of which no two share an end. -/
structure IsMatching (G : Graph ε κ ι) (chosen : List ε) : Prop where
  edges : ∀ e ∈ chosen, G.edge e
  apart : chosen.Pairwise fun e f => G.left e ≠ G.left f ∧ G.right e ≠ G.right f

/-- What some edges cost together. -/
def total (G : Graph ε κ ι) (chosen : List ε) : Int := (chosen.map G.cost).sum

/-- A matching with as many edges as any has, and of those with so many one of the least cost. -/
structure IsBest (G : Graph ε κ ι) (chosen : List ε) : Prop extends IsMatching G chosen where
  most : ∀ other, G.IsMatching other → other.length ≤ chosen.length
  cheapest : ∀ other, G.IsMatching other → other.length = chosen.length → G.total chosen ≤ G.total other

lemma IsMatching.eq_of_left (h : G.IsMatching chosen) {e f : ε} (first : e ∈ chosen)
    (second : f ∈ chosen) (same : G.left e = G.left f) : e = f := by
  by_contra ne
  have symm : Std.Symm fun e f => G.left e ≠ G.left f ∧ G.right e ≠ G.right f :=
    ⟨fun _ _ apart => ⟨apart.1.symm, apart.2.symm⟩⟩
  exact (h.apart.forall first second ne).1 same

lemma IsMatching.nodup (h : G.IsMatching chosen) : chosen.Nodup := by
  refine h.apart.imp ?_
  rintro e f apart rfl
  exact apart.1 rfl

/-- In which order the edges are listed does not count. -/
lemma IsBest.perm (h : G.IsBest chosen) (order : chosen.Perm other) : G.IsBest other where
  edges e member := h.edges e (order.mem_iff.mpr member)
  apart := h.apart.perm order fun apart => ⟨apart.1.symm, apart.2.symm⟩
  most third matching := order.length_eq ▸ h.most third matching
  cheapest third matching same := by
    have cost : G.total other = G.total chosen := (order.map G.cost).sum_eq.symm
    rw [cost]
    exact h.cheapest third matching (same.trans order.length_eq.symm)

/-- The graph whose ends have changed places. -/
def turn (G : Graph ε κ ι) : Graph ε ι κ := ⟨G.edge, G.right, G.left, G.cost⟩

lemma IsMatching.turn (h : G.IsMatching chosen) : G.turn.IsMatching chosen :=
  ⟨h.edges, h.apart.imp And.symm⟩

lemma IsBest.turn (h : G.IsBest chosen) : G.turn.IsBest chosen where
  toIsMatching := h.toIsMatching.turn
  most other matching := h.most other matching.turn
  cheapest other matching := h.cheapest other matching.turn

lemma IsMatching.eq_of_right (h : G.IsMatching chosen) {e f : ε} (first : e ∈ chosen)
    (second : f ∈ chosen) (same : G.right e = G.right f) : e = f :=
  h.turn.eq_of_left first second same

/-- One graph is part of another one if its edges have the costs of edges there, and share their ends just
if those do. -/
structure Embeds (H : Graph ε' κ' ι') (G : Graph ε κ ι) (f : ε' → ε) : Prop where
  edge : ∀ e, H.edge e → G.edge (f e)
  cost : ∀ e, H.edge e → G.cost (f e) = H.cost e
  left : ∀ e e', H.edge e → H.edge e' → (G.left (f e) = G.left (f e') ↔ H.left e = H.left e')
  right : ∀ e e', H.edge e → H.edge e' → (G.right (f e) = G.right (f e') ↔ H.right e = H.right e')

namespace Embeds

variable {f : ε' → ε} {part : List ε'}

lemma isMatching (h : H.Embeds G f) (edges : ∀ e ∈ part, H.edge e) :
    G.IsMatching (part.map f) ↔ H.IsMatching part := by
  have ends : ∀ e ∈ part, ∀ e' ∈ part,
      ((G.left (f e) ≠ G.left (f e') ∧ G.right (f e) ≠ G.right (f e')) ↔
        H.left e ≠ H.left e' ∧ H.right e ≠ H.right e') := by
    intro e member e' member'
    rw [Ne, Ne, h.left e e' (edges e member) (edges e' member'),
      h.right e e' (edges e member) (edges e' member')]
  constructor
  · intro matching
    refine ⟨edges, ?_⟩
    refine (List.pairwise_map.mp matching.apart).imp_of_mem ?_
    exact fun member member' apart => (ends _ member _ member').mp apart
  · intro matching
    constructor
    · intro _ image
      obtain ⟨e, member, rfl⟩ := List.mem_map.mp image
      exact h.edge e (edges e member)
    · refine List.pairwise_map.mpr (matching.apart.imp_of_mem ?_)
      exact fun member member' apart => (ends _ member _ member').mpr apart

lemma total (h : H.Embeds G f) (edges : ∀ e ∈ part, H.edge e) :
    G.total (part.map f) = H.total part := by
  unfold Graph.total
  rw [List.map_map]
  congr 1
  exact List.map_congr_left fun e member => h.cost e (edges e member)

/-- What is best in the whole graph is best in a part that has all of it. -/
lemma isBest (h : H.Embeds G f) (edges : ∀ e ∈ part, H.edge e) (best : G.IsBest (part.map f)) :
    H.IsBest part where
  toIsMatching := (h.isMatching edges).mp best.toIsMatching
  most other matching := by
    have bound := best.most _ ((h.isMatching matching.edges).mpr matching)
    rwa [List.length_map, List.length_map] at bound
  cheapest other matching same := by
    have bound := best.cheapest _ ((h.isMatching matching.edges).mpr matching) (by simpa using same)
    rwa [h.total edges, h.total matching.edges] at bound

end Embeds

end Graph

/-! ## Entries -/

variable {n m x y : Nat} {es : List Entry} {e : Entry}

/-- The entry that counts in a place: the last one there. -/
def entryAt? (es : List Entry) (x y : Nat) : Option Entry :=
  es.reverse.find? fun e => e.row = x ∧ e.column = y

/-- The graph of the entries that count. -/
def graph (es : List Entry) : Graph Entry Nat Nat where
  edge e := entryAt? es e.row e.column = some e
  left := Entry.row
  right := Entry.column
  cost := Entry.cost

lemma of_entryAt? (found : entryAt? es x y = some e) : e ∈ es ∧ e.row = x ∧ e.column = y := by
  have place := List.find?_some found
  exact ⟨List.mem_reverse.mp (List.mem_of_find?_eq_some found), by simpa using place⟩

lemma edge_of_entryAt? (found : entryAt? es x y = some e) : (graph es).edge e := by
  obtain ⟨_, rfl, rfl⟩ := of_entryAt? found
  exact found

lemma mem_of_edge (edge : (graph es).edge e) : e ∈ es :=
  (of_entryAt? edge).1

/-- Where no place has two entries, every entry counts. -/
lemma edge_of_mem (once : ∀ e ∈ es, ∀ e' ∈ es, e.row = e'.row → e.column = e'.column → e = e')
    (member : e ∈ es) : (graph es).edge e := by
  have some_ : (entryAt? es e.row e.column).isSome := by
    unfold entryAt?
    rw [List.find?_isSome]
    exact ⟨e, List.mem_reverse.mpr member, decide_eq_true ⟨rfl, rfl⟩⟩
  obtain ⟨e', found⟩ := Option.isSome_iff_exists.mp some_
  obtain ⟨member', row, column⟩ := of_entryAt? found
  obtain rfl := once e' member' e member row column
  exact found

lemma entryAt?_cons : entryAt? (e :: es) x y =
    (entryAt? es x y).or (if e.row = x ∧ e.column = y then some e else none) := by
  unfold entryAt?
  rw [List.reverse_cons, List.find?_append, List.find?_singleton]
  simp only [decide_eq_true_eq]

section Worth

variable {value : Int} {w : WeightMatrix n m} {x : Fin n} {y : Fin m}

lemma get_set_set {i : Fin n} {j : Fin m} :
    ((w.set i ((w.get i).set j value j.isLt) i.isLt).get x).get y =
      if i = x ∧ j = y then value else (w.get x).get y := by
  rw [Assignment.get_set]
  by_cases sameRow : i = x
  · have column : ((w.get i).set j value j.isLt).get y = if j = y then value else (w.get i).get y :=
      Assignment.get_set
    rw [if_pos sameRow, column, sameRow]
    exact if_congr ⟨fun same => ⟨rfl, same⟩, And.right⟩ rfl rfl
  · rw [if_neg sameRow, if_neg fun place => sameRow place.1]

/-- The matrix is filled by steps that each put one entry in its place. -/
lemma get_foldl (prize : Int) {step : WeightMatrix n m → Entry → WeightMatrix n m}
    (puts : ∀ w e (x : Fin n) (y : Fin m), ((step w e).get x).get y =
      if e.row = x ∧ e.column = y then prize - e.cost else (w.get x).get y) :
    ((es.foldl step w).get x).get y =
      (entryAt? es x y).elim ((w.get x).get y) fun e => prize - e.cost := by
  induction es generalizing w with
  | nil => rfl
  | cons e es ih =>
    rw [List.foldl_cons, ih, puts, entryAt?_cons]
    cases entryAt? es x y with
    | some later => rfl
    | none => split <;> rfl

end Worth

/-! ## What an assignment is worth -/

/-- How much more an entry is worth than a place without one. -/
def gain (es : List Entry) (pairs : Nat) (e : Entry) : Int := reward es pairs - e.cost - infeasible es pairs

/-- The entries that an assignment of all rows runs along. -/
def along (es : List Entry) (f : Fin n → Fin m) : List Entry :=
  (List.finRange n).filterMap fun x : Fin n => entryAt? es x (f x)

lemma mem_along {f : Fin n → Fin m} : e ∈ along es f ↔ ∃ x : Fin n, entryAt? es x (f x) = some e := by
  unfold along
  rw [List.mem_filterMap]
  exact ⟨fun ⟨x, _, found⟩ => ⟨x, found⟩, fun ⟨x, found⟩ => ⟨x, List.mem_finRange x, found⟩⟩

lemma get_worth {x : Fin n} {y : Fin m} (enough : n ≤ m) : ((worth n m es).get x).get y =
    infeasible es n + (entryAt? es x y).elim 0 (gain es n) := by
  have fold : ((worth n m es).get x).get y =
      (entryAt? es x y).elim (infeasible es (min n m)) fun e => reward es (min n m) - e.cost := by
    refine (get_foldl (reward es (min n m)) ?_).trans ?_
    · intro w e x y
      split
      · rename_i inside
        refine (get_set_set (i := ⟨e.row, inside.1⟩) (j := ⟨e.column, inside.2⟩)).trans ?_
        exact if_congr (and_congr Fin.ext_iff Fin.ext_iff) rfl rfl
      · rename_i outside
        rw [if_neg]
        rintro ⟨row, column⟩
        exact outside ⟨row ▸ x.isLt, column ▸ y.isLt⟩
    · congr 1
      show ((Vector.replicate n (Vector.replicate m _)).get x).get y = _
      rw [Assignment.get_replicate, Assignment.get_replicate]
  rw [fold, min_eq_left enough]
  cases entryAt? es x y with
  | none => exact (Int.add_zero _).symm
  | some e =>
    show reward es n - e.cost = infeasible es n + gain es n e
    unfold gain
    omega

/-- The weight of an assignment is that of an empty one and what its entries gain. -/
lemma sum_worth (enough : n ≤ m) (f : Fin n → Fin m) :
    ∑ x, ((worth n m es).get x).get (f x) =
      n * infeasible es n + ((along es f).map (gain es n)).sum := by
  have split : ∀ rows : List (Fin n),
      (rows.map fun x => ((worth n m es).get x).get (f x)).sum = rows.length * infeasible es n +
        ((rows.filterMap fun x : Fin n => entryAt? es x (f x)).map (gain es n)).sum := by
    intro rows
    induction rows with
    | nil => simp
    | cons x rows ih =>
      rw [List.map_cons, List.sum_cons, ih, get_worth enough, List.filterMap_cons, List.length_cons]
      cases entryAt? es x (f x) with
      | none =>
        simp only [Option.elim_none]
        push_cast
        ring
      | some e =>
        simp only [Option.elim_some, List.map_cons, List.sum_cons]
        push_cast
        ring
  rw [Fin.sum_univ_def, split, List.length_finRange]
  rfl

lemma sum_gain {pairs : Nat} {chosen : List Entry} : (chosen.map (gain es pairs)).sum =
    chosen.length * (reward es pairs - infeasible es pairs) - (graph es).total chosen := by
  induction chosen with
  | nil => simp [Graph.total]
  | cons e chosen ih =>
    have cost : (graph es).total (e :: chosen) = e.cost + (graph es).total chosen := List.sum_cons
    rw [List.map_cons, List.sum_cons, ih, cost, List.length_cons]
    unfold gain
    push_cast
    ring

/-! ## The rewards -/

lemma le_maxCost (es : List Entry) : 0 ≤ maxCost es ∧ ∀ e ∈ es, e.cost ≤ maxCost es := by
  have fold : ∀ (es : List Entry) (best : Int), best ≤ es.foldl (fun best e => max best e.cost) best ∧
      ∀ e ∈ es, e.cost ≤ es.foldl (fun best e => max best e.cost) best := by
    intro es
    induction es with
    | nil => exact fun best => ⟨Int.le_refl best, List.forall_mem_nil _⟩
    | cons e es ih =>
      intro best
      obtain ⟨first, others⟩ := ih (max best e.cost)
      refine ⟨Int.le_trans (Int.le_max_left _ _) first, ?_⟩
      intro e' member
      rcases List.mem_cons.mp member with rfl | later
      · exact Int.le_trans (Int.le_max_right _ _) first
      · exact others e' later
  exact fold es 0

lemma maxCost_lt_reward (es : List Entry) (pairs : Nat) : pairs * maxCost es < reward es pairs ∧
    maxCost es < reward es pairs ∧ infeasible es pairs < 0 := by
  have nonneg := (le_maxCost es).1
  have count : (0 : Int) ≤ pairs := Int.natCast_nonneg pairs
  have prize : 0 < reward es pairs := by
    unfold reward
    positivity
  refine ⟨?_, ?_, ?_⟩
  · unfold reward
    nlinarith
  · unfold reward
    nlinarith
  · unfold infeasible
    have : 0 < reward es pairs * (pairs + 1) := by positivity
    omega

lemma gain_pos (pairs : Nat) (member : e ∈ es) : 0 < gain es pairs e := by
  have bound := (le_maxCost es).2 e member
  obtain ⟨_, above, below⟩ := maxCost_lt_reward es pairs
  unfold gain
  omega

/-- One edge more is worth more than all costs. -/
lemma reward_dominates {pairs : Nat} {chosen other : List Entry} (few : other.length ≤ pairs)
    (members : ∀ e ∈ other, e ∈ es) (nonneg : ∀ e ∈ chosen, 0 ≤ e.cost)
    (better : (other.map (gain es pairs)).sum ≤ (chosen.map (gain es pairs)).sum) :
    other.length ≤ chosen.length ∧
      (other.length = chosen.length → (graph es).total chosen ≤ (graph es).total other) := by
  obtain ⟨above, _, below⟩ := maxCost_lt_reward es pairs
  have costs : (graph es).total other ≤ pairs * maxCost es := by
    have each : (graph es).total other ≤ other.length * maxCost es := by
      have sum := List.sum_le_card_nsmul (other.map Entry.cost) (maxCost es) ?_
      · rwa [List.length_map, nsmul_eq_mul] at sum
      · intro _ listed
        obtain ⟨e, member, rfl⟩ := List.mem_map.mp listed
        exact (le_maxCost es).2 e (members e member)
    have count : (other.length : Int) ≤ pairs := by exact_mod_cast few
    exact each.trans (mul_le_mul_of_nonneg_right count (le_maxCost es).1)
  have saving : 0 ≤ (graph es).total chosen := by
    apply List.sum_nonneg
    intro _ listed
    obtain ⟨e, member, rfl⟩ := List.mem_map.mp listed
    exact nonneg e member
  rw [sum_gain, sum_gain] at better
  generalize prize : reward es pairs - infeasible es pairs = value at better
  have large : (graph es).total other < value := by omega
  constructor
  · by_contra more
    have next : (chosen.length : Int) + 1 ≤ other.length := by exact_mod_cast Nat.not_le.mp more
    have positive : 0 ≤ value := by
      have nonneg := (le_maxCost es).1
      omega
    have one := mul_le_mul_of_nonneg_right next positive
    rw [add_mul, one_mul] at one
    omega
  · intro same
    rw [same] at better
    omega

/-! ## The matching of an assignment -/

/-- Every matching is part of an assignment of all rows. -/
lemma exists_extension {chosen : List Entry} (matching : (graph es).IsMatching chosen)
    (inside : ∀ e ∈ es, e.row < n ∧ e.column < m) (enough : n ≤ m) :
    ∃ g : Fin n → Fin m, g.Injective ∧ chosen ⊆ along es g := by
  -- the column of each row that has an entry
  have place : ∀ x : Fin n, ∃ y : Fin m, ∀ e ∈ chosen, e.row = x → e.column = y := by
    intro x
    by_cases some_ : ∃ e ∈ chosen, e.row = x
    · obtain ⟨e, member, row⟩ := some_
      refine ⟨⟨e.column, (inside e (mem_of_edge (matching.edges e member))).2⟩, ?_⟩
      intro e' member' row'
      obtain rfl := matching.eq_of_left member member' (row.trans row'.symm)
      rfl
    · exact ⟨Fin.castLE enough x, fun e member row => absurd ⟨e, member, row⟩ some_⟩
  choose f column using place
  let rows : Finset (Fin n) := {x | ∃ e ∈ chosen, e.row = x}
  have apart : Set.InjOn f rows := by
    intro x member x' member' same
    obtain ⟨e, chosen_, row⟩ := (Finset.mem_filter.mp member).2
    obtain ⟨e', chosen_', row'⟩ := (Finset.mem_filter.mp member').2
    have columns : e.column = e'.column := by
      rw [column x e chosen_ row, column x' e' chosen_' row', same]
    obtain rfl := matching.eq_of_right chosen_ chosen_' columns
    exact Fin.ext (row.symm.trans row')
  -- the other rows take what is left of as many columns as there are rows
  have few : (rows.image f).card ≤ n := by
    refine Finset.card_image_le.trans ((Finset.card_le_univ rows).trans ?_)
    rw [Fintype.card_fin]
  obtain ⟨columns, part, count⟩ := Finset.exists_superset_card_eq few (by rwa [Fintype.card_fin])
  obtain ⟨g, same⟩ := Finset.exists_equiv_extend_of_card_eq
    ((Fintype.card_fin n).trans count.symm) part apart
  refine ⟨fun x => g x, Subtype.val_injective.comp g.injective, ?_⟩
  intro e member
  let x : Fin n := ⟨e.row, (inside e (mem_of_edge (matching.edges e member))).1⟩
  have chosen_ : x ∈ rows := Finset.mem_filter.mpr ⟨Finset.mem_univ x, e, member, rfl⟩
  refine mem_along.mpr ⟨x, ?_⟩
  show entryAt? es e.row (g x : Fin m) = some e
  rw [same x chosen_, ← column x e member rfl]
  exact matching.edges e member

/-- The entries along an assignment share no row and no column. -/
lemma along_isMatching {f : Fin n → Fin m} (injective : f.Injective) :
    (graph es).IsMatching (along es f) := by
  constructor
  · intro e member
    obtain ⟨x, found⟩ := mem_along.mp member
    exact edge_of_entryAt? found
  · unfold along
    rw [List.pairwise_filterMap]
    refine (List.nodup_finRange n).imp ?_
    intro x x' ne e found e' found'
    obtain ⟨_, row, column⟩ := of_entryAt? found
    obtain ⟨_, row', column'⟩ := of_entryAt? found'
    constructor
    · show e.row ≠ e'.row
      rw [row, row']
      exact fun same => ne (Fin.ext same)
    · show e.column ≠ e'.column
      rw [column, column']
      exact fun same => ne (injective (Fin.ext same))

/-- A matching of which an assignment has all entries gains at most what the assignment does. -/
lemma gain_le_along {other : List Entry} {g : Fin n → Fin m} (sub : other.Subperm (along es g)) :
    (other.map (gain es n)).sum ≤ ((along es g).map (gain es n)).sum := by
  obtain ⟨ordered, order, sublist⟩ := sub
  rw [← (order.map (gain es n)).sum_eq]
  refine (sublist.map (gain es n)).sum_le_sum ?_
  intro _ listed
  obtain ⟨e, member, rfl⟩ := List.mem_map.mp listed
  obtain ⟨x, found⟩ := mem_along.mp member
  exact (gain_pos n (of_entryAt? found).1).le

/-- The entries along an assignment of greatest weight are a best matching. -/
lemma along_best {f : Fin n → Fin m} (inside : ∀ e ∈ es, e.row < n ∧ e.column < m)
    (nonneg : ∀ e ∈ es, 0 ≤ e.cost) (enough : n ≤ m) (injective : f.Injective)
    (greatest : ∀ g : Fin n → Fin m, g.Injective →
      ∑ x, ((worth n m es).get x).get (g x) ≤ ∑ x, ((worth n m es).get x).get (f x)) :
    (graph es).IsBest (along es f) := by
  have matching : (graph es).IsMatching (along es f) := along_isMatching injective
  have better : ∀ other, (graph es).IsMatching other → other.length ≤ (along es f).length ∧
      (other.length = (along es f).length →
        (graph es).total (along es f) ≤ (graph es).total other) := by
    intro other matching'
    obtain ⟨g, apart, part⟩ := exists_extension matching' inside enough
    have sub : other.Subperm (along es g) := List.subperm_of_subset matching'.nodup part
    have few : other.length ≤ n := by
      refine sub.length_le.trans ((List.length_filterMap_le _ _).trans ?_)
      rw [List.length_finRange]
    refine reward_dominates few (fun e member => mem_of_edge (matching'.edges e member))
      (fun e member => nonneg e (mem_of_edge (matching.edges e member))) ?_
    have weight := greatest g apart
    rw [sum_worth enough, sum_worth enough] at weight
    have gains := gain_le_along sub
    omega
  exact ⟨matching, fun other matching' => (better other matching').1,
    fun other matching' => (better other matching').2⟩

/-- The entry of a pair. -/
def entryOf? (es : List Entry) (pair : Nat × Nat) : Option Entry := entryAt? es pair.1 pair.2

lemma pairs_best [Solver] [LawfulSolver] (inside : ∀ e ∈ es, e.row < n ∧ e.column < m) (nonneg : ∀ e ∈ es, 0 ≤ e.cost)
    (enough : n ≤ m) : (graph es).IsBest ((pairs n m es).filterMap (entryOf? es)) ∧
      ∀ pair ∈ pairs n m es, (entryOf? es pair).isSome := by
  obtain ⟨f, injective, joined, greatest⟩ := LawfulSolver.greatest (worth n m es) enough
  -- a pair is read from the assignment just where there is an entry
  have read : ∀ x : Fin n, (((Solver.columnOf (worth n m es)).get x).bind fun y =>
      if infeasible es (min n m) < ((worth n m es).get x).get y then some (x.val, y.val) else none) =
      (entryAt? es x (f x)).map fun e => (e.row, e.column) := by
    intro x
    rw [joined x, Option.bind_some, get_worth enough, min_eq_left enough]
    cases found : entryAt? es x (f x) with
    | none =>
      rw [if_neg]
      · rfl
      · rw [Option.elim_none]
        omega
    | some e =>
      obtain ⟨member, row, column⟩ := of_entryAt? found
      have positive := gain_pos n member
      rw [if_pos, Option.map_some, row, column]
      rw [Option.elim_some]
      omega
  have pairs_eq : pairs n m es = (along es f).map fun e => (e.row, e.column) := by
    unfold pairs along
    rw [List.map_filterMap]
    exact List.filterMap_congr fun x _ => read x
  have own : ∀ e ∈ along es f, entryOf? es (e.row, e.column) = some e := by
    intro e member
    obtain ⟨x, found⟩ := mem_along.mp member
    exact edge_of_entryAt? found
  rw [pairs_eq]
  constructor
  · have same : (along es f).filterMap (entryOf? es ∘ fun e => (e.row, e.column)) = along es f :=
      (List.filterMap_congr own).trans List.filterMap_some
    rw [List.filterMap_map, same]
    exact along_best inside nonneg enough injective greatest
  · intro _ listed
    obtain ⟨e, member, rfl⟩ := List.mem_map.mp listed
    rw [own e member]
    rfl

/-- The cheapest pair is not part of the cheapest pairing of both rows. -/
example : pairs 2 2 [⟨0, 0, 1000⟩, ⟨0, 1, 2000⟩, ⟨1, 0, 7000⟩, ⟨1, 1, 100000⟩] = [(0, 1), (1, 0)] := by
  decide +kernel

/-! ## The turned matrix -/

/-- An entry whose row and column have changed places. -/
def Entry.turn (e : Entry) : Entry := ⟨e.column, e.row, e.cost⟩

lemma entryAt?_turn : entryAt? (es.map Entry.turn) y x = (entryAt? es x y).map Entry.turn := by
  unfold entryAt?
  rw [← List.map_reverse, List.find?_map]
  congr 1
  refine congrArg (fun p => List.find? p es.reverse) (funext fun e => ?_)
  exact decide_eq_decide.mpr And.comm

lemma embeds_turn : (graph es).Embeds (graph (es.map Entry.turn)).turn Entry.turn where
  edge e edge := by
    show entryAt? (es.map Entry.turn) e.column e.row = some e.turn
    rw [entryAt?_turn, show entryAt? es e.row e.column = some e from edge, Option.map_some]
  cost _ _ := rfl
  left _ _ _ _ := Iff.rfl
  right _ _ _ _ := Iff.rfl

/-! ## Matchings of least cost -/

lemma costMs_nonneg (cost : Float) : 0 ≤ costMs cost := by
  unfold costMs
  split
  · exact Int.le_refl 0
  · exact le_min (Int.natCast_nonneg _) (by decide)

lemma of_mem_entries {rows columns : Nat} {edges : List Edge} (member : e ∈ entries rows columns edges) :
    (e.row < rows ∧ e.column < columns) ∧ 0 ≤ e.cost := by
  unfold entries at member
  obtain ⟨edge, listed, rfl⟩ := List.mem_map.mp member
  have inside := (List.mem_filter.mp listed).2
  exact ⟨of_decide_eq_true inside, costMs_nonneg edge.cost⟩

lemma best_of_isEmpty (empty : es.isEmpty) : (graph es).IsBest [] := by
  have none_ : ∀ other, (graph es).IsMatching other → other = [] := by
    intro other matching
    apply List.eq_nil_iff_forall_not_mem.mpr
    intro e member
    have listed := mem_of_edge (matching.edges e member)
    rw [List.isEmpty_iff.mp empty] at listed
    cases listed
  refine ⟨⟨List.forall_mem_nil _, .nil⟩, ?_, ?_⟩
  · intro other matching
    rw [none_ other matching]
  · intro other matching _
    rw [none_ other matching]

/-- Where the columns are assigned to rows, the pairs of the turned matrix are turned back. -/
lemma turned_best [Solver] [LawfulSolver] {rows columns : Nat} (inside : ∀ e ∈ es, e.row < rows ∧ e.column < columns)
    (nonneg : ∀ e ∈ es, 0 ≤ e.cost) (enough : columns ≤ rows) :
    let turned := pairs columns rows (es.map Entry.turn)
    (graph es).IsBest ((turned.map Prod.swap).filterMap (entryOf? es)) ∧
      ∀ pair ∈ turned, (entryOf? es pair.swap).isSome := by
  intro turned
  have back : ∀ pair : Nat × Nat,
      (entryOf? es pair.swap).map Entry.turn = entryOf? (es.map Entry.turn) pair :=
    fun _ => entryAt?_turn.symm
  have insideTurned : ∀ e ∈ es.map Entry.turn, e.row < columns ∧ e.column < rows := by
    intro _ listed
    obtain ⟨e, member, rfl⟩ := List.mem_map.mp listed
    exact (inside e member).symm
  have nonnegTurned : ∀ e ∈ es.map Entry.turn, 0 ≤ e.cost := by
    intro _ listed
    obtain ⟨e, member, rfl⟩ := List.mem_map.mp listed
    exact nonneg e member
  obtain ⟨best, some_⟩ := pairs_best insideTurned nonnegTurned enough
  constructor
  · refine embeds_turn.isBest ?_ ?_
    · intro e member
      obtain ⟨pair, _, found⟩ := List.mem_filterMap.mp member
      exact edge_of_entryAt? found
    · rw [List.filterMap_map, List.map_filterMap]
      exact (List.filterMap_congr fun pair _ => back pair) ▸ best.turn
  · intro pair listed
    have found := some_ pair listed
    rwa [← back pair, Option.isSome_map] at found

/-- The pairs are those of a best matching of the edges in the matrix, whichever side is the smaller one:
each pair has an entry, and the entries of the pairs are as many as possible and cost as little as so many
can. -/
theorem solve_best [Solver] [LawfulSolver] (rows columns : Nat) (edges : List Edge) :
    let es := entries rows columns edges
    (graph es).IsBest ((solve rows columns edges).filterMap (entryOf? es)) ∧
      ∀ pair ∈ solve rows columns edges, (entryOf? es pair).isSome := by
  intro es
  have inside : ∀ e ∈ es, e.row < rows ∧ e.column < columns := fun e member => (of_mem_entries member).1
  have nonneg : ∀ e ∈ es, 0 ≤ e.cost := fun e member => (of_mem_entries member).2
  by_cases empty : es.isEmpty
  · have nothing : solve rows columns edges = [] := if_pos empty
    rw [nothing]
    exact ⟨best_of_isEmpty empty, List.forall_mem_nil _⟩
  · by_cases more : columns < rows
    · have result : solve rows columns edges = ((pairs columns rows (es.map Entry.turn)).map
          Prod.swap).mergeSort fun a b => a.1 ≤ b.1 := (if_neg empty).trans (if_pos more)
      obtain ⟨best, some_⟩ := turned_best inside nonneg (Nat.le_of_lt more)
      rw [result]
      constructor
      · exact best.perm ((List.mergeSort_perm _ _).symm.filterMap (entryOf? es))
      · intro pair member
        obtain ⟨pair, listed, rfl⟩ := List.mem_map.mp (List.mem_mergeSort.mp member)
        exact some_ pair listed
    · have result : solve rows columns edges = pairs rows columns es :=
        (if_neg empty).trans (if_neg more)
      rw [result]
      exact pairs_best inside nonneg (Nat.not_lt.mp more)

end RideDispatch.Matching

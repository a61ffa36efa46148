import Mathlib.Algebra.BigOperators.Fin
import Mathlib.Algebra.Order.BigOperators.Group.Finset
import Mathlib.Data.Fintype.Card
import Mathlib.Data.List.FinRange
import Mathlib.Tactic.Lemma
import RideDispatch.Matching.Assignment

/-!
# Assignments of greatest weight

`Assignment.solve` gives every row a column of its own, if there are enough columns, and no other way to do
so has a greater weight (`solve_greatest`). The labels prove it: they bound every weight, they are tight
along what is joined, and a column that is not joined is labelled zero (`Labelled`). Between two rows the
joints are known to both sides (`Mutual`), and `addRow` joins one row more and gives up none.

While a tree grows (`Grown`) its columns are those that its rows are joined with, except for the root, so
that there is always a column outside it. Moving the labels by the least slack makes an edge to such a
column tight and keeps the tight ones so. When a free column is reached, every row of the tree takes the
column that it leads to and gives its own to the row before it (`Loose`, `augment_spec`).
-/

namespace RideDispatch.Assignment

variable {n m : Nat} {w : WeightMatrix n m} {a : Assignment n m} {t : Tree n m} {root : Fin n}

lemma get_set {α : Type} {k : Nat} {v : Vector α k} {i j : Fin k} {x : α} :
    (v.set i x i.isLt).get j = if i = j then x else v.get j := by
  simp only [Fin.ext_iff]
  exact Vector.getElem_set i.isLt j.isLt

lemma get_ofFn {α : Type} {k : Nat} {f : Fin k → α} {i : Fin k} : (Vector.ofFn f).get i = f i :=
  Vector.getElem_ofFn i.isLt

lemma get_replicate {α : Type} {k : Nat} {x : α} {i : Fin k} : (Vector.replicate k x).get i = x :=
  Vector.getElem_replicate i.isLt

/-! ## Labels -/

/-- The labels bound the weights, and they prove that what is joined could not weigh more. -/
structure Labelled (w : WeightMatrix n m) (a : Assignment n m) : Prop where
  feasible : ∀ (x : Fin n) (y : Fin m), 0 ≤ a.slackOf w x y
  tight : ∀ (x : Fin n) (y : Fin m), a.columnOf.get x = some y → a.slackOf w x y = 0
  nonneg : ∀ y : Fin m, 0 ≤ a.columnLabel.get y
  unused : ∀ y : Fin m, a.rowOf.get y = none → a.columnLabel.get y = 0

/-- A row and a column that are joined know of each other. -/
def Mutual (a : Assignment n m) : Prop :=
  ∀ (x : Fin n) (y : Fin m), a.columnOf.get x = some y ↔ a.rowOf.get y = some x

lemma Mutual.inj (h : a.Mutual) {x x' : Fin n} {y : Fin m} (first : a.columnOf.get x = some y)
    (second : a.columnOf.get x' = some y) : x = x' :=
  Option.some.inj (((h x y).mp first).symm.trans ((h x' y).mp second))

/-- Where every row has a column, no other choice of columns weighs more. -/
lemma Labelled.greatest (labelled : a.Labelled w) (known : a.Mutual) {f g : Fin n → Fin m}
    (full : ∀ x, a.columnOf.get x = some (f x)) (apart : g.Injective) :
    ∑ x, (w.get x).get (g x) ≤ ∑ x, (w.get x).get (f x) := by
  have injective : f.Injective := by
    intro x x' same
    exact known.inj (full x) (same ▸ full x')
  calc ∑ x, (w.get x).get (g x)
      ≤ ∑ x : Fin n, (a.rowLabel.get x + a.columnLabel.get (g x)) := by
        refine Finset.sum_le_sum fun x _ => ?_
        exact Int.sub_nonneg.mp (labelled.feasible x (g x))
    _ = ∑ x : Fin n, a.rowLabel.get x + ∑ x, a.columnLabel.get (g x) := Finset.sum_add_distrib
    _ ≤ ∑ x : Fin n, a.rowLabel.get x + ∑ y : Fin m, a.columnLabel.get y := by
        -- `g` takes a part of the columns, and the others add nothing negative
        refine Int.add_le_add_left ?_ _
        rw [← Finset.sum_image (f := fun y : Fin m => a.columnLabel.get y) apart.injOn]
        exact Finset.sum_le_sum_of_subset_of_nonneg (Finset.subset_univ _)
          fun y _ _ => labelled.nonneg y
    _ = ∑ x : Fin n, a.rowLabel.get x + ∑ x, a.columnLabel.get (f x) := by
        -- `f` takes all columns with a label
        congr 1
        rw [← Finset.sum_image (f := fun y : Fin m => a.columnLabel.get y) injective.injOn]
        refine (Finset.sum_subset (Finset.subset_univ _) fun y _ free => ?_).symm
        apply labelled.unused
        cases joined : a.rowOf.get y with
        | none => rfl
        | some x =>
          have same : f x = y := Option.some.inj ((full x).symm.trans ((known x y).mpr joined))
          exact absurd (Finset.mem_image.mpr ⟨x, Finset.mem_univ x, same⟩) free
    _ = ∑ x : Fin n, (a.rowLabel.get x + a.columnLabel.get (f x)) := Finset.sum_add_distrib.symm
    _ = ∑ x, (w.get x).get (f x) := by
        refine Finset.sum_congr rfl fun x _ => ?_
        exact Int.sub_eq_zero.mp (labelled.tight x (f x) (full x))

lemma slackOf_eq {x : Fin n} {y : Fin m} :
    a.slackOf w x y = a.rowLabel.get x + a.columnLabel.get y - (w.get x).get y := rfl

lemma le_greatest (weights : Vector Int m) (y : Fin m) : weights.get y ≤ greatest weights := by
  have fold : ∀ (rest : List Int) (w : Int), w ≤ rest.foldl max w ∧ ∀ v ∈ rest, v ≤ rest.foldl max w := by
    intro rest
    induction rest with
    | nil => exact fun w => ⟨Int.le_refl w, List.forall_mem_nil _⟩
    | cons v rest ih =>
      intro w
      obtain ⟨first, others⟩ := ih (max w v)
      refine ⟨Int.le_trans (Int.le_max_left w v) first, ?_⟩
      rintro u (_ | ⟨_, member⟩)
      · exact Int.le_trans (Int.le_max_right w v) first
      · exact others u member
  have member : weights.get y ∈ weights.toList :=
    Vector.mem_toList_iff.mpr (Vector.getElem_mem y.isLt)
  unfold greatest
  split
  · rename_i empty
    rw [empty] at member
    cases member
  · rename_i v rest parts
    rw [parts] at member
    rcases List.mem_cons.mp member with first | later
    · rw [first]
      exact (fold rest v).1
    · exact (fold rest v).2 _ later

lemma Labelled.start : (start w).Labelled w where
  feasible x y := by
    have row : (Assignment.start w).rowLabel.get x = Assignment.greatest (w.get x) :=
      Vector.getElem_map Assignment.greatest x.isLt
    have column : (Assignment.start w).columnLabel.get y = 0 := get_replicate
    rw [slackOf_eq, row, column]
    have bound := le_greatest (w.get x) y
    omega
  tight x y joined := by
    have free : (Assignment.start w).columnOf.get x = none := get_replicate
    rw [free] at joined
    cases joined
  nonneg y := by
    have column : (Assignment.start w).columnLabel.get y = 0 := get_replicate
    rw [column]
  unused y _ := get_replicate

lemma Mutual.start : (start w).Mutual := by
  intro x y
  have free : (Assignment.start w).columnOf.get x = none := get_replicate
  have free' : (Assignment.start w).rowOf.get y = none := get_replicate
  rw [free, free']
  exact ⟨nofun, nofun⟩

/-! ## Trees -/

namespace Tree

/-- The rows of a tree, the last one first: each row but the root is joined with a column that was reached
from a row before it. -/
inductive Path (a : Assignment n m) (t : Tree n m) (root : Fin n) : List (Fin n) → Prop
  | root : Path a t root [root]
  | row {x p : Fin n} {y : Fin m} {rest : List (Fin n)} :
    a.columnOf.get x = some y → t.parent.get y = some p → p ∈ rest → x ∉ rest →
    Path a t root rest → Path a t root (x :: rest)

/-- A tree of tight edges from a row that is not joined yet. -/
structure Rooted (w : WeightMatrix n m) (a : Assignment n m) (t : Tree n m) (root : Fin n) : Prop where
  path : t.Path a root t.rows
  free : a.columnOf.get root = none
  parents : ∀ (y : Fin m) (p : Fin n), t.parent.get y = some p → p ∈ t.rows ∧ a.slackOf w p y = 0

/-- A tree that has not reached a free column, and the slack between its rows and the columns outside. -/
structure Grown (w : WeightMatrix n m) (a : Assignment n m) (t : Tree n m) (root : Fin n) : Prop
    extends Rooted w a t root where
  columns : ∀ y : Fin m, (t.parent.get y).isSome → ∃ x ∈ t.rows, a.columnOf.get x = some y
  near : ∀ y : Fin m, t.parent.get y = none → t.slackRow.get y ∈ t.rows ∧
    t.slack.get y = a.slackOf w (t.slackRow.get y) y ∧ ∀ x ∈ t.rows, t.slack.get y ≤ a.slackOf w x y

variable {rows : List (Fin n)} {x : Fin n}

lemma Path.nodup (path : t.Path a root rows) : rows.Nodup := by
  induction path with
  | root => exact List.nodup_singleton root
  | row _ _ _ new _ ih => exact List.nodup_cons.mpr ⟨new, ih⟩

/-- A row with a column leads to a row before it. -/
lemma Path.descend (path : t.Path a root rows) (free : a.columnOf.get root = none) {y : Fin m}
    (member : x ∈ rows) (joined : a.columnOf.get x = some y) :
    ∃ p rest, t.parent.get y = some p ∧ p ∈ rest ∧ x ∉ rest ∧ rest.length < rows.length ∧
      t.Path a root rest := by
  induction path with
  | root =>
    rw [List.mem_singleton.mp member, free] at joined
    cases joined
  | @row z p _ rest own parent before new path ih =>
    rcases List.mem_cons.mp member with rfl | later
    · obtain rfl := Option.some.inj (own.symm.trans joined)
      exact ⟨p, rest, parent, before, new, Nat.lt_succ_self _, path⟩
    · obtain ⟨q, rest', parent', before', new', shorter, path'⟩ := ih later
      exact ⟨q, rest', parent', before', new', Nat.lt_succ_of_lt shorter, path'⟩

/-- Only the root has no column. -/
lemma Path.eq_root (path : t.Path a root rows) (member : x ∈ rows) (free : a.columnOf.get x = none) :
    x = root := by
  induction path with
  | root => exact List.mem_singleton.mp member
  | row own _ _ _ _ ih =>
    rcases List.mem_cons.mp member with rfl | later
    · exact absurd (free.symm.trans own) nofun
    · exact ih later

/-- A path stands as long as its rows keep their columns and its columns their parents. -/
lemma Path.congr {a' : Assignment n m} {t' : Tree n m} (path : t.Path a root rows)
    (columns : ∀ x ∈ rows, a'.columnOf.get x = a.columnOf.get x)
    (parents : ∀ (y : Fin m) (p : Fin n), t.parent.get y = some p → t'.parent.get y = some p) :
    t'.Path a' root rows := by
  induction path with
  | root => exact .root
  | @row x _ _ _ own parent before new _ ih =>
    have same := columns x List.mem_cons_self
    refine .row (same.trans own) (parents _ _ parent) before new (ih ?_)
    intro z member
    exact columns z (List.mem_cons_of_mem x member)

lemma Rooted.joined (h : t.Rooted w a root) {y : Fin m} (member : x ∈ t.rows)
    (joined : a.columnOf.get x = some y) : (t.parent.get y).isSome := by
  obtain ⟨p, _, parent, _⟩ := h.path.descend h.free member joined
  rw [parent]
  rfl

lemma Rooted.length_le (h : t.Rooted w a root) : t.rows.length ≤ n := by
  have bound := h.path.nodup.length_le_card
  rwa [Fintype.card_fin] at bound

/-- The root is not joined with a column of the tree, so a column is left outside. -/
lemma Grown.exists_outside (h : t.Grown w a root) (enough : n ≤ m) :
    ∃ y : Fin m, t.parent.get y = none := by
  by_contra all
  have inside : ∀ y : Fin m, ∃ x ∈ t.rows, a.columnOf.get x = some y := by
    intro y
    apply h.columns
    rw [Option.isSome_iff_ne_none]
    exact fun outside => all ⟨y, outside⟩
  choose row _ joined using inside
  have apart : row.Injective := by
    intro y y' same
    exact Option.some.inj ((joined y).symm.trans (same ▸ joined y'))
  have missed : root ∉ Set.range row := by
    rintro ⟨y, rfl⟩
    exact absurd (h.free.symm.trans (joined y)) nofun
  have fewer := Fintype.card_lt_of_injective_of_notMem row apart missed
  simp only [Fintype.card_fin] at fewer
  omega

lemma Grown.ofRow (free : a.columnOf.get x = none) : (Tree.root w a x).Grown w a x where
  path := .root
  free := free
  parents y p parent := by
    have none_ : (Tree.root w a x).parent.get y = none := get_replicate
    rw [none_] at parent
    cases parent
  columns y inside := by
    have none_ : (Tree.root w a x).parent.get y = none := get_replicate
    rw [none_] at inside
    cases inside
  near y _ := by
    have slack : (Tree.root w a x).slack.get y = a.slackOf w x y := get_ofFn
    have row : (Tree.root w a x).slackRow.get y = x := get_replicate
    rw [slack, row]
    refine ⟨List.mem_singleton_self x, rfl, ?_⟩
    intro z member
    rw [List.mem_singleton.mp member]

/-! ### The next column -/

/-- One step of the search for the next column. -/
def better (t : Tree n m) (best : Option (Fin m)) (y : Fin m) : Option (Fin m) :=
  if (t.parent.get y).isSome then best
  else
    match best with
    | none => some y
    | some b => if t.slack.get y < t.slack.get b then some y else best

/-- Of the columns that have been seen, this is one outside the tree with the least slack. -/
structure Leads (t : Tree n m) (seen : List (Fin m)) (best : Option (Fin m)) : Prop where
  outside : ∀ b, best = some b → t.parent.get b = none
  least : ∀ y ∈ seen, t.parent.get y = none → ∃ b, best = some b ∧ t.slack.get b ≤ t.slack.get y

lemma Leads.better {seen : List (Fin m)} {best : Option (Fin m)} (h : t.Leads seen best) (y : Fin m) :
    t.Leads (seen ++ [y]) (t.better best y) := by
  unfold Tree.better
  split
  · rename_i inside
    refine ⟨h.outside, ?_⟩
    intro z member outside
    rcases List.mem_append.mp member with before | new
    · exact h.least z before outside
    · rw [List.mem_singleton.mp new] at outside
      rw [outside] at inside
      cases inside
  · rename_i outside
    rw [Option.not_isSome_iff_eq_none] at outside
    split
    · constructor
      · rintro b ⟨⟩
        exact outside
      · intro z member outside'
        rcases List.mem_append.mp member with before | new
        · obtain ⟨b, none_, _⟩ := h.least z before outside'
          cases none_
        · rw [List.mem_singleton.mp new]
          exact ⟨y, rfl, Int.le_refl _⟩
    · rename_i b
      split
      · rename_i less
        constructor
        · rintro b ⟨⟩
          exact outside
        · intro z member outside'
          refine ⟨y, rfl, ?_⟩
          rcases List.mem_append.mp member with before | new
          · obtain ⟨b', same, bound⟩ := h.least z before outside'
            obtain rfl := Option.some.inj same
            omega
          · rw [List.mem_singleton.mp new]
      · rename_i atLeast
        refine ⟨h.outside, ?_⟩
        intro z member outside'
        rcases List.mem_append.mp member with before | new
        · exact h.least z before outside'
        · rw [List.mem_singleton.mp new]
          exact ⟨b, rfl, Int.not_lt.mp atLeast⟩

lemma nextColumn?_leads : t.Leads (List.finRange m) t.nextColumn? := by
  have fold : ∀ (ys seen : List (Fin m)) (best : Option (Fin m)), t.Leads seen best →
      t.Leads (seen ++ ys) (ys.foldl t.better best) := by
    intro ys
    induction ys with
    | nil =>
      intro seen best h
      rwa [List.append_nil]
    | cons y ys ih =>
      intro seen best h
      rw [List.append_cons]
      exact ih _ _ (h.better y)
  refine fold (List.finRange m) [] none ⟨?_, List.forall_mem_nil _⟩
  intro b nobody
  cases nobody

/-- A tree that leaves a column out has a next one. -/
lemma exists_nextColumn? {z : Fin m} (outside : t.parent.get z = none) :
    ∃ y, t.nextColumn? = some y ∧ t.parent.get y = none ∧
      ∀ z : Fin m, t.parent.get z = none → t.slack.get y ≤ t.slack.get z := by
  obtain ⟨outside', least⟩ := nextColumn?_leads (t := t)
  obtain ⟨y, next, _⟩ := least z (List.mem_finRange z) outside
  refine ⟨y, next, outside' y next, ?_⟩
  intro z' free
  obtain ⟨y', next', bound⟩ := least z' (List.mem_finRange z') free
  obtain rfl := Option.some.inj (next.symm.trans next')
  exact bound

end Tree

/-! ## Moving the labels -/

section Move

variable {delta : Int}

lemma columnLabel_relabel {y : Fin m} : (a.relabel t delta).columnLabel.get y =
    if (t.parent.get y).isSome then a.columnLabel.get y + delta else a.columnLabel.get y :=
  get_ofFn

lemma slackOf_relabel {x : Fin n} {y : Fin m} : (a.relabel t delta).slackOf w x y =
    a.slackOf w x y - (if x ∈ t.rows then delta else 0) +
      (if (t.parent.get y).isSome then delta else 0) := by
  have row : (a.relabel t delta).rowLabel.get x =
      if t.rows.contains x then a.rowLabel.get x - delta else a.rowLabel.get x := get_ofFn
  rw [slackOf_eq, slackOf_eq, row, columnLabel_relabel]
  simp only [List.contains_iff_mem]
  split <;> split <;> omega

lemma slackOf_inside {x : Fin n} {y : Fin m} (row : x ∈ t.rows) (column : (t.parent.get y).isSome) :
    (a.relabel t delta).slackOf w x y = a.slackOf w x y := by
  rw [slackOf_relabel, if_pos row, if_pos column]
  omega

lemma slackOf_across {x : Fin n} {y : Fin m} (row : x ∈ t.rows) (column : t.parent.get y = none) :
    (a.relabel t delta).slackOf w x y = a.slackOf w x y - delta := by
  rw [slackOf_relabel, if_pos row, if_neg (by rw [column]; exact Bool.false_ne_true)]
  omega

/-- The labels may move by no more than the least slack. -/
lemma Labelled.relabel (labelled : a.Labelled w) (known : a.Mutual) (grown : t.Grown w a root)
    (positive : 0 ≤ delta) (least : ∀ y : Fin m, t.parent.get y = none → delta ≤ t.slack.get y) :
    (a.relabel t delta).Labelled w where
  feasible x y := by
    have before := labelled.feasible x y
    rw [slackOf_relabel]
    by_cases row : x ∈ t.rows
    · cases column : t.parent.get y with
      | none =>
        have bound := (grown.near y column).2.2 x row
        have delta_le := least y column
        simp only [if_pos row, Option.isSome_none, Bool.false_eq_true, if_false]
        omega
      | some p =>
        simp only [if_pos row, Option.isSome_some, if_true]
        omega
    · rw [if_neg row]
      split <;> omega
  tight x y joined := by
    have before := labelled.tight x y joined
    by_cases row : x ∈ t.rows
    · rw [slackOf_inside row (grown.joined row joined)]
      exact before
    · -- the column is not in the tree either: it would be joined with a row of the tree
      have column : ¬ (t.parent.get y).isSome := by
        intro inside
        obtain ⟨x', row', joined'⟩ := grown.columns y inside
        exact row (known.inj joined joined' ▸ row')
      rw [slackOf_relabel, if_neg row, if_neg column]
      omega
  nonneg y := by
    have before := labelled.nonneg y
    rw [columnLabel_relabel]
    split <;> omega
  unused y unjoined := by
    have outside : ¬ (t.parent.get y).isSome := by
      intro inside
      obtain ⟨x, _, joined⟩ := grown.columns y inside
      exact absurd (unjoined.symm.trans ((known x y).mp joined)) nofun
    rw [columnLabel_relabel, if_neg outside]
    exact labelled.unused y unjoined

namespace Tree

lemma slack_lessSlack {y : Fin m} (outside : t.parent.get y = none) :
    (t.lessSlack delta).slack.get y = t.slack.get y - delta :=
  get_ofFn.trans (if_neg (Option.not_isSome_iff_eq_none.mpr outside))

lemma Grown.lessSlack (grown : t.Grown w a root) :
    (t.lessSlack delta).Grown w (a.relabel t delta) root where
  path := grown.path.congr (fun _ _ => rfl) fun _ _ parent => parent
  free := grown.free
  parents y p parent := by
    obtain ⟨member, tight⟩ := grown.parents y p parent
    have inside : (t.parent.get y).isSome := by
      rw [show t.parent.get y = some p from parent]
      rfl
    exact ⟨member, (slackOf_inside member inside).trans tight⟩
  columns := grown.columns
  near y outside := by
    obtain ⟨member, slack, least⟩ := grown.near y outside
    rw [slack_lessSlack (t := t) outside]
    refine ⟨member, ?_, ?_⟩
    · show t.slack.get y - delta = (a.relabel t delta).slackOf w (t.slackRow.get y) y
      rw [slackOf_across member outside, slack]
    · intro x row
      have bound := least x row
      rw [slackOf_across (t := t) row outside]
      omega

end Tree

end Move

/-! ## Growing -/

namespace Tree

variable {x : Fin n} {y : Fin m}

lemma parent_addColumn {z : Fin m} :
    (t.addColumn y).parent.get z = if y = z then some (t.slackRow.get y) else t.parent.get z :=
  get_set

/-- The tree with a column, along a tight edge, is a tree of tight edges. -/
lemma Grown.addColumn (grown : t.Grown w a root) (outside : t.parent.get y = none)
    (tight : t.slack.get y = 0) : (t.addColumn y).Rooted w a root where
  path := by
    refine grown.path.congr (fun _ _ => rfl) ?_
    intro z p parent
    rw [parent_addColumn]
    split
    · rename_i same
      rw [same, parent] at outside
      cases outside
    · exact parent
  free := grown.free
  parents z p parent := by
    rw [parent_addColumn] at parent
    split at parent
    · rename_i same
      obtain ⟨member, slack, _⟩ := grown.near y outside
      cases parent
      exact ⟨member, same ▸ slack.symm.trans tight⟩
    · exact grown.parents z p parent

/-- A new row counts for a column outside if it is nearer than the rows before. -/
lemma near_addRow {z : Fin m} (outside : t.parent.get z = none) :
    (t.addRow w a x).slack.get z =
        (if a.slackOf w x z < t.slack.get z then a.slackOf w x z else t.slack.get z) ∧
      (t.addRow w a x).slackRow.get z =
        (if a.slackOf w x z < t.slack.get z then x else t.slackRow.get z) := by
  have nearer : ((t.parent.get z).isNone && decide (a.slackOf w x z < t.slack.get z)) = true ↔
      a.slackOf w x z < t.slack.get z := by
    rw [outside]
    exact decide_eq_true_iff
  exact ⟨get_ofFn.trans (if_congr nearer rfl rfl), get_ofFn.trans (if_congr nearer rfl rfl)⟩

/-- The tree with the row that its new column is joined with. -/
lemma Grown.addRow (grown : t.Grown w a root) (outside : t.parent.get y = none)
    (tight : t.slack.get y = 0) (joined : a.columnOf.get x = some y) :
    ((t.addColumn y).addRow w a x).Grown w a root where
  path := by
    have rooted := grown.addColumn outside tight
    have parent : (t.addColumn y).parent.get y = some (t.slackRow.get y) := by
      rw [parent_addColumn, if_pos rfl]
    have path : ((t.addColumn y).addRow w a x).Path a root t.rows :=
      rooted.path.congr (fun _ _ => rfl) fun _ _ parent => parent
    refine .row joined parent (rooted.parents y _ parent).1 ?_ path
    -- the row is new, for the tree has none of its columns
    intro member
    have inside := grown.joined member joined
    rw [outside] at inside
    cases inside
  free := grown.free
  parents z p parent := by
    obtain ⟨member, tight⟩ := (grown.addColumn outside tight).parents z p parent
    exact ⟨List.mem_cons_of_mem x member, tight⟩
  columns z inside := by
    have parent : ((t.addColumn y).parent.get z).isSome := inside
    rw [parent_addColumn] at parent
    split at parent
    · rename_i same
      exact ⟨x, List.mem_cons_self, same ▸ joined⟩
    · obtain ⟨x', member, joined'⟩ := grown.columns z parent
      exact ⟨x', List.mem_cons_of_mem x member, joined'⟩
  near z outside' := by
    have parent : (t.addColumn y).parent.get z = none := outside'
    have before : t.parent.get z = none := by
      rw [parent_addColumn] at parent
      split at parent
      · cases parent
      · exact parent
    obtain ⟨member, slack, least⟩ := grown.near z before
    obtain ⟨slack', row'⟩ := near_addRow (w := w) (a := a) (x := x) parent
    rw [slack', row']
    split
    · rename_i less
      refine ⟨List.mem_cons_self, rfl, ?_⟩
      intro x' member'
      rcases List.mem_cons.mp member' with rfl | older
      · exact Int.le_refl _
      · exact Int.le_trans (Int.le_of_lt less) (least x' older)
    · rename_i atLeast
      refine ⟨List.mem_cons_of_mem x member, slack, ?_⟩
      intro x' member'
      rcases List.mem_cons.mp member' with rfl | older
      · exact Int.not_lt.mp atLeast
      · exact least x' older

end Tree

/-- The move that makes the edge to the next column tight. -/
lemma exists_moved {y : Fin m} (labelled : a.Labelled w) (known : a.Mutual) (grown : t.Grown w a root)
    (outside : t.parent.get y = none)
    (least : ∀ z : Fin m, t.parent.get z = none → t.slack.get y ≤ t.slack.get z) :
    ∃ a' t', (if 0 < t.slack.get y then a.relabel t (t.slack.get y) else a) = a' ∧
      (if 0 < t.slack.get y then t.lessSlack (t.slack.get y) else t) = t' ∧ a'.Labelled w ∧
      t'.Grown w a' root ∧ a'.columnOf = a.columnOf ∧ a'.rowOf = a.rowOf ∧ t'.parent = t.parent ∧
      t'.rows = t.rows ∧ t'.slack.get y = 0 := by
  have nonneg : 0 ≤ t.slack.get y := by
    rw [(grown.near y outside).2.1]
    exact labelled.feasible _ y
  by_cases positive : 0 < t.slack.get y
  · refine ⟨_, _, if_pos positive, if_pos positive, labelled.relabel known grown nonneg least,
      grown.lessSlack, rfl, rfl, rfl, rfl, ?_⟩
    rw [Tree.slack_lessSlack outside, Int.sub_self]
  · exact ⟨a, t, if_neg positive, if_neg positive, labelled, grown, rfl, rfl, rfl, rfl,
      Int.le_antisymm (Int.not_lt.mp positive) nonneg⟩

/-- A step of growth, after the move to the next column. -/
lemma grow_eq {bound : Nat} {y : Fin m} {a' : Assignment n m} {t' : Tree n m}
    (next : t.nextColumn? = some y)
    (labels : (if 0 < t.slack.get y then a.relabel t (t.slack.get y) else a) = a')
    (tree : (if 0 < t.slack.get y then t.lessSlack (t.slack.get y) else t) = t') :
    grow w (bound + 1) a t = match a'.rowOf.get y with
      | none => some (a', t'.addColumn y, y)
      | some x => grow w bound a' ((t'.addColumn y).addRow w a' x) := by
  subst labels tree
  rw [grow, next]
  rfl

/-- With enough columns a tree grows until it reaches a free one. -/
lemma grow_spec (bound : Nat) (labelled : a.Labelled w) (known : a.Mutual) (grown : t.Grown w a root)
    (enough : n ≤ m) (steps : m < bound + t.rows.length) :
    ∃ a' t' y, grow w bound a t = some (a', t', y) ∧ a'.Labelled w ∧ a'.Mutual ∧
      a'.columnOf = a.columnOf ∧ a'.rowOf.get y = none ∧ t'.Rooted w a' root ∧ (t'.parent.get y).isSome := by
  induction bound generalizing a t with
  | zero =>
    have few := grown.length_le
    omega
  | succ bound ih =>
    obtain ⟨z, left⟩ := grown.exists_outside enough
    obtain ⟨y, next, outside, least⟩ := Tree.exists_nextColumn? left
    obtain ⟨a₁, t₁, labels, tree, labelled₁, grown₁, columns, rows, parents, same, tight⟩ :=
      exists_moved labelled known grown outside least
    have known₁ : a₁.Mutual := by
      intro x' y'
      rw [columns, rows]
      exact known x' y'
    have outside₁ : t₁.parent.get y = none := by
      rw [parents]
      exact outside
    rw [grow_eq next labels tree]
    cases joined : a₁.rowOf.get y with
    | none =>
      refine ⟨a₁, t₁.addColumn y, y, rfl, labelled₁, known₁, columns, joined,
        grown₁.addColumn outside₁ tight, ?_⟩
      rw [Tree.parent_addColumn, if_pos rfl]
      rfl
    | some x =>
      have grown₂ := grown₁.addRow outside₁ tight ((known₁ x y).mpr joined)
      have steps₂ : m < bound + ((t₁.addColumn y).addRow w a₁ x).rows.length := by
        show m < bound + (t₁.rows.length + 1)
        rw [same]
        omega
      obtain ⟨a', t', y', reached, labelled', known', columns', rest⟩ :=
        ih labelled₁ known₁ grown₂ steps₂
      exact ⟨a', t', y', reached, labelled', known', columns'.trans columns, rest⟩

/-! ## Joining -/

/-- What is joined is known to both sides, but for a column that no row has. -/
structure Loose (a : Assignment n m) (y : Fin m) : Prop where
  forth : ∀ (x : Fin n) (z : Fin m), a.columnOf.get x = some z → a.rowOf.get z = some x ∧ z ≠ y
  back : ∀ (x : Fin n) (z : Fin m), z ≠ y → a.rowOf.get z = some x → a.columnOf.get x = some z

/-- The assignment in which a row and a column are joined. -/
def join (a : Assignment n m) (x : Fin n) (y : Fin m) : Assignment n m :=
  { a with
    columnOf := a.columnOf.set x (some y) x.isLt
    rowOf := a.rowOf.set y (some x) y.isLt }

section Join

variable {x : Fin n} {y : Fin m}

lemma columnOf_join {z : Fin n} :
    (a.join x y).columnOf.get z = if x = z then some y else a.columnOf.get z :=
  get_set

lemma rowOf_join {z : Fin m} :
    (a.join x y).rowOf.get z = if y = z then some x else a.rowOf.get z :=
  get_set

lemma augment_eq {bound : Nat} (parent : t.parent.get y = some x) : augment t (bound + 1) a y =
    match a.columnOf.get x with
    | none => a.join x y
    | some given => augment t bound (a.join x y) given := by
  rw [augment]
  split
  · rename_i none_
    exact absurd (none_.symm.trans parent) (Option.some_ne_none x).symm
  · rename_i x' found
    obtain rfl := Option.some.inj (parent.symm.trans found)
    rfl

lemma Labelled.join (h : a.Labelled w) (tight : a.slackOf w x y = 0) : (a.join x y).Labelled w where
  feasible := h.feasible
  tight x' y' joined := by
    rw [columnOf_join] at joined
    split at joined
    · rename_i same
      cases joined
      exact same ▸ tight
    · exact h.tight x' y' joined
  nonneg := h.nonneg
  unused z free := by
    rw [rowOf_join] at free
    split at free
    · cases free
    · exact h.unused z free

lemma Mutual.loose (h : a.Mutual) (free : a.rowOf.get y = none) : a.Loose y where
  forth x z joined := by
    have known := (h x z).mp joined
    refine ⟨known, ?_⟩
    rintro rfl
    exact absurd (free.symm.trans known) nofun
  back x z _ known := (h x z).mpr known

/-- A row without a column takes the loose one. -/
lemma Loose.mutual_join (h : a.Loose y) (free : a.columnOf.get x = none) : (a.join x y).Mutual := by
  intro x' z
  rw [columnOf_join, rowOf_join]
  by_cases row : x = x'
  · rw [if_pos row]
    by_cases column : y = z
    · rw [if_pos column, row, column]
      exact iff_of_true rfl rfl
    · rw [if_neg column]
      refine iff_of_false (fun same => column (Option.some.inj same)) fun known => ?_
      exact absurd ((row ▸ free).symm.trans (h.back x' z (Ne.symm column) known)) nofun
  · rw [if_neg row]
    by_cases column : y = z
    · rw [if_pos column]
      refine iff_of_false (fun joined => (h.forth x' z joined).2 column.symm) fun same => ?_
      exact row (Option.some.inj same)
    · rw [if_neg column]
      exact ⟨fun joined => (h.forth x' z joined).1, h.back x' z (Ne.symm column)⟩

/-- A row that takes the loose column gives its own up. -/
lemma Loose.join {given : Fin m} (h : a.Loose y) (held : a.columnOf.get x = some given) :
    (a.join x y).Loose given where
  forth x' z joined := by
    obtain ⟨known, ne⟩ := h.forth x given held
    rw [columnOf_join] at joined
    rw [rowOf_join]
    split at joined
    · rename_i row
      obtain rfl := Option.some.inj joined
      rw [if_pos rfl, row]
      exact ⟨rfl, Ne.symm ne⟩
    · rename_i row
      obtain ⟨known', ne'⟩ := h.forth x' z joined
      rw [if_neg (Ne.symm ne')]
      refine ⟨known', ?_⟩
      rintro rfl
      exact row (Option.some.inj (known.symm.trans known'))
  back x' z ne known := by
    rw [rowOf_join] at known
    rw [columnOf_join]
    split at known
    · rename_i column
      rw [if_pos (Option.some.inj known), column]
    · rename_i column
      have joined := h.back x' z (Ne.symm column) known
      rw [if_neg, joined]
      rintro rfl
      exact ne (Option.some.inj (joined.symm.trans held))

end Join

/-- Along the tree every row hands its column on, so that only the root is joined anew. -/
lemma augment_spec {bound : Nat} {x : Fin n} {y : Fin m} {rows : List (Fin n)}
    (labelled : a.Labelled w) (loose : a.Loose y)
    (tight : ∀ (y : Fin m) (p : Fin n), t.parent.get y = some p → a.slackOf w p y = 0)
    (path : t.Path a root rows) (free : a.columnOf.get root = none) (parent : t.parent.get y = some x)
    (member : x ∈ rows) (steps : rows.length ≤ bound) :
    (augment t bound a y).Labelled w ∧ (augment t bound a y).Mutual ∧
      ∀ z, (augment t bound a y).columnOf.get z = none ↔ a.columnOf.get z = none ∧ z ≠ root := by
  induction bound generalizing a y x rows with
  | zero =>
    have some_ := List.length_pos_of_mem member
    omega
  | succ bound ih =>
    rw [augment_eq parent]
    have labelled' := labelled.join (tight y x parent)
    cases held : a.columnOf.get x with
    | none =>
      have atRoot := path.eq_root member held
      refine ⟨labelled', loose.mutual_join held, ?_⟩
      intro z
      simp only
      rw [columnOf_join, atRoot]
      split
      · rename_i same
        exact iff_of_false nofun fun h => h.2 same.symm
      · rename_i ne
        exact ⟨fun none_ => ⟨none_, Ne.symm ne⟩, And.left⟩
    | some given =>
      obtain ⟨p, rest, parent', before, new, shorter, path'⟩ := path.descend free member held
      have ne : x ≠ root := by
        rintro rfl
        exact absurd (free.symm.trans held) nofun
      have path₂ : t.Path (a.join x y) root rest := by
        refine path'.congr ?_ fun _ _ parent => parent
        intro z later
        rw [columnOf_join, if_neg]
        rintro rfl
        exact new later
      have free₂ : (a.join x y).columnOf.get root = none := by
        rw [columnOf_join, if_neg ne]
        exact free
      obtain ⟨labelled₂, mutual₂, left⟩ := ih labelled' (loose.join held) tight path₂ free₂ parent'
        before (by omega)
      refine ⟨labelled₂, mutual₂, ?_⟩
      intro z
      simp only
      rw [left z, columnOf_join]
      split
      · rename_i same
        rw [← same, held]
        exact iff_of_false (fun h => Option.some_ne_none _ h.1) fun h => Option.some_ne_none _ h.1
      · rfl

/-! ## All rows -/

/-- With enough columns one more row is joined, and none loses its column. -/
lemma addRow_spec {x : Fin n} (labelled : a.Labelled w) (known : a.Mutual)
    (free : a.columnOf.get x = none) (enough : n ≤ m) :
    (addRow w a x).Labelled w ∧ (addRow w a x).Mutual ∧
      ∀ z, (addRow w a x).columnOf.get z = none ↔ a.columnOf.get z = none ∧ z ≠ x := by
  obtain ⟨a', t, y, grown, labelled', known', columns, unjoined, rooted, inside⟩ :=
    grow_spec m labelled known (.ofRow free) enough (Nat.lt_succ_self m)
  obtain ⟨p, parent⟩ := Option.isSome_iff_exists.mp inside
  have spec := augment_spec labelled' (known'.loose unjoined) (fun z q h => (rooted.parents z q h).2)
    rooted.path rooted.free parent (rooted.parents y p parent).1 rooted.length_le
  unfold addRow
  rw [grown]
  rw [columns] at spec
  exact spec

/-- The rows that have been added are just those with a column. -/
lemma addRows_spec {rows : List (Fin n)} (labelled : a.Labelled w) (known : a.Mutual)
    (free : ∀ x ∈ rows, a.columnOf.get x = none) (distinct : rows.Nodup) (enough : n ≤ m) :
    (rows.foldl (addRow w) a).Labelled w ∧ (rows.foldl (addRow w) a).Mutual ∧
      ∀ z, (rows.foldl (addRow w) a).columnOf.get z = none ↔ a.columnOf.get z = none ∧ z ∉ rows := by
  induction rows generalizing a with
  | nil => exact ⟨labelled, known, fun z => by simp⟩
  | cons x rows ih =>
    obtain ⟨new, distinct⟩ := List.nodup_cons.mp distinct
    obtain ⟨labelled', known', left⟩ :=
      addRow_spec labelled known (free x List.mem_cons_self) enough
    have free' : ∀ z ∈ rows, (addRow w a x).columnOf.get z = none := by
      intro z member
      refine (left z).mpr ⟨free z (List.mem_cons_of_mem x member), ?_⟩
      rintro rfl
      exact new member
    obtain ⟨labelled'', known'', left'⟩ := ih labelled' known' free' distinct
    refine ⟨labelled'', known'', ?_⟩
    intro z
    rw [List.foldl_cons, left', left, List.mem_cons, not_or, and_assoc]

/-- Where there are enough columns every row is given one of its own, and no other way to give every row
a column of its own weighs more. -/
theorem solve_greatest (w : WeightMatrix n m) (enough : n ≤ m) :
    ∃ f : Fin n → Fin m, f.Injective ∧ (∀ x, (solve w).get x = some (f x)) ∧
      ∀ g : Fin n → Fin m, g.Injective →
        ∑ x, (w.get x).get (g x) ≤ ∑ x, (w.get x).get (f x) := by
  have fresh : ∀ x ∈ List.finRange n, (start w).columnOf.get x = none := fun x _ => get_replicate
  obtain ⟨labelled, known, left⟩ :=
    addRows_spec Labelled.start Mutual.start fresh (List.nodup_finRange n) enough
  have full : ∀ x, ∃ y, (solve w).get x = some y := by
    intro x
    apply Option.ne_none_iff_exists'.mp
    intro none_
    exact ((left x).mp none_).2 (List.mem_finRange x)
  choose f joined using full
  refine ⟨f, ?_, joined, fun g apart => labelled.greatest known joined apart⟩
  intro x x' same
  exact known.inj (joined x) (same ▸ joined x')

end RideDispatch.Assignment

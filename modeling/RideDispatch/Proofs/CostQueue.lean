import Mathlib.Data.List.Basic
import Mathlib.Tactic.Lemma
import RideDispatch.Graph.CostQueue

/-!
# The order of a queue

In a queue that is `Ordered` no entry costs less than the one above it, so the first one is a cheapest one
(`OrderedHeap.first_le`). What `push` adds and `pop?` takes leaves the queue ordered and is the only change to
what waits in it (`toList_push`, `Ordered.push`, `Ordered.pop`).

While an entry is being moved the order may fail at its position only. `OrderedBut` says so: the entries below
that position are not cheaper than the one above it. Lifting the entry mends the order from there, and sinking
it carries the position to the bottom, where nothing is below.
-/

namespace RideDispatch.CostQueue

/-- The first position stands right below the second one. -/
def Below (i j : Nat) : Prop := i = 2 * j + 1 ∨ i = 2 * j + 2

lemma Below.lt {i j : Nat} (h : Below i j) : j < i := by
  unfold Below at h
  omega

lemma Below.above_eq {i j : Nat} (h : Below i j) : (i - 1) / 2 = j := by
  unfold Below at h
  omega

lemma below_above {i : Nat} (h : 0 < i) : Below i ((i - 1) / 2) := by
  unfold Below
  omega

/-- No entry costs less than the one above it. -/
def OrderedHeap (heap : Array Entry) : Prop :=
  ∀ i j (hi : i < heap.size) (hj : j < heap.size), Below i j → heap[j].cost ≤ heap[i].cost

/-- The order fails at one position at most, and the entries below it are not cheaper than the one above. -/
structure OrderedBut (heap : Array Entry) (k : Nat) : Prop where
  elsewhere : ∀ i j (hi : i < heap.size) (hj : j < heap.size), Below i j → i ≠ k → j ≠ k →
    heap[j].cost ≤ heap[i].cost
  across : ∀ i j (hi : i < heap.size) (hj : j < heap.size), Below i k → Below k j →
    heap[j].cost ≤ heap[i].cost

variable {heap : Array Entry} {k : Nat}

/-- An entry may be put at the bottom. -/
lemma OrderedHeap.push (h : OrderedHeap heap) (e : Entry) : OrderedBut (heap.push e) heap.size := by
  constructor
  case elsewhere =>
    intro i j hi hj below other other'
    rw [Array.size_push] at hi hj
    have hi : i < heap.size := by omega
    have hj : j < heap.size := by omega
    rw [Array.getElem_push_lt hi, Array.getElem_push_lt hj]
    exact h i j hi hj below
  case across =>
    intro i j hi hj below _
    rw [Array.size_push] at hi
    have := below.lt
    omega

lemma lift_perm (heap : Array Entry) (k : Nat) : (lift heap k).Perm heap := by
  fun_induction lift heap k with
  | case1 heap k inside above _ cheaper ih => exact ih.trans (Array.swap_perm _ _)
  | case2 => exact .rfl
  | case3 => exact .rfl

/-- An entry that is cheaper than the one above it changes places with it. -/
lemma OrderedBut.exchange (h : OrderedBut heap k) {j : Nat} (hk : k < heap.size) (hj : j < heap.size)
    (below : Below k j) (cheaper : heap[k].cost < heap[j].cost) :
    OrderedBut (heap.swap k j) j ∧
      ∀ i (hi : i < (heap.swap k j).size) (hj : j < (heap.swap k j).size), Below i j →
        (heap.swap k j)[j].cost ≤ (heap.swap k j)[i].cost := by
  have lt := below.lt
  have upper : ∀ i (hi : i < heap.size), Below i j → i ≠ k → heap[j].cost ≤ heap[i].cost :=
    fun i hi under other => h.elsewhere i j hi hj under other (Nat.ne_of_lt lt)
  refine ⟨⟨?_, ?_⟩, ?_⟩
  · intro i j' hi hj' under other other'
    have inside : i < heap.size := by simpa using hi
    have inside' : j' < heap.size := by simpa using hj'
    have unlike : i ≠ k := by
      intro same
      rw [same] at under
      exact other' (under.above_eq.symm.trans below.above_eq)
    rw [Array.getElem_swap, Array.getElem_swap, if_neg unlike, if_neg other, if_neg other']
    split
    · rename_i same
      exact h.across i j inside hj (same ▸ under) below
    · rename_i unlike'
      exact h.elsewhere i j' inside inside' under unlike unlike'
  · intro i j' hi hj' under above
    have inside : i < heap.size := by simpa using hi
    have inside' : j' < heap.size := by simpa using hj'
    have lt' := above.lt
    have lt'' := under.lt
    have first := h.elsewhere j j' hj inside' above (by omega) (by omega)
    rw [Array.getElem_swap, Array.getElem_swap, if_neg (by omega), if_neg (by omega)]
    split
    · exact first
    · rename_i other
      rw [if_neg (by omega)]
      exact Nat.le_trans first (upper i inside under other)
  · intro i hi _ under
    have inside : i < heap.size := by simpa using hi
    have lt'' := under.lt
    rw [Array.getElem_swap_right, Array.getElem_swap]
    split
    · exact Nat.le_of_lt cheaper
    · rename_i other
      rw [if_neg (by omega)]
      exact Nat.le_trans (Nat.le_of_lt cheaper) (upper i inside under other)

/-- If the entry at the position is in order as well, all of them are. -/
lemma OrderedBut.mended (h : OrderedBut heap k)
    (up : ∀ j (hk : k < heap.size) (hj : j < heap.size), Below k j → heap[j].cost ≤ heap[k].cost)
    (down : ∀ i (hi : i < heap.size) (hk : k < heap.size), Below i k → heap[k].cost ≤ heap[i].cost) :
    OrderedHeap heap := by
  intro i j hi hj under
  by_cases here : i = k
  · subst here
    exact up j hi hj under
  · by_cases here' : j = k
    · subst here'
      exact down i hi hj under
    · exact h.elsewhere i j hi hj under here here'

/-- Lifting an entry that is not dearer than those below it mends the order. -/
lemma OrderedBut.lift (h : OrderedBut heap k)
    (down : ∀ i (hi : i < heap.size) (hk : k < heap.size), Below i k → heap[k].cost ≤ heap[i].cost) :
    OrderedHeap (lift heap k) := by
  fun_induction CostQueue.lift heap k with
  | case1 heap k inside above _ cheaper ih =>
    obtain ⟨next, down'⟩ := h.exchange inside.2 _ (below_above inside.1) cheaper
    exact ih next down'
  | case2 heap k inside above _ dearer =>
    refine h.mended ?_ down
    intro j hk hj under
    obtain rfl := under.above_eq
    exact Nat.le_of_not_lt dearer
  | case3 heap k outside =>
    refine h.mended ?_ down
    intro j hk hj under
    exact absurd ⟨Nat.lt_of_le_of_lt (Nat.zero_le j) under.lt, hk⟩ outside

lemma sink_perm (heap : Array Entry) (k : Nat) : (sink heap k).1.Perm heap := by
  fun_induction sink heap k with
  | case1 heap k inside below _ _ ih => exact ih.trans (Array.swap_perm _ _)
  | case2 => exact Array.swap_perm _ _
  | case3 => exact .rfl

/-- The cheapest of the entries below a position may change places with the entry there. -/
lemma OrderedBut.descend (h : OrderedBut heap k) {c : Nat} (hk : k < heap.size) (hc : c < heap.size)
    (below : Below c k)
    (cheapest : ∀ i (hi : i < heap.size), Below i k → heap[c].cost ≤ heap[i].cost) :
    OrderedBut (heap.swap k c) c := by
  have lt := below.lt
  constructor
  case elsewhere =>
    intro i j hi hj under other other'
    have inside : i < heap.size := by simpa using hi
    have inside' : j < heap.size := by simpa using hj
    rw [Array.getElem_swap, Array.getElem_swap, if_neg other, if_neg other']
    by_cases lower : j = k
    · rw [if_pos lower, if_neg (by have := under.lt; omega)]
      exact cheapest i inside (lower ▸ under)
    · rw [if_neg lower]
      split
      · rename_i upper
        exact h.across c j hc inside' below (upper ▸ under)
      · rename_i upper
        exact h.elsewhere i j inside inside' under upper lower
  case across =>
    intro i j hi hj under above
    have inside : i < heap.size := by simpa using hi
    have lt' := under.lt
    obtain rfl : j = k := above.above_eq.symm.trans below.above_eq
    rw [Array.getElem_swap_left, Array.getElem_swap, if_neg (by omega), if_neg (by omega)]
    exact h.elsewhere i c inside hc under (by omega) (by omega)

/-- An entry that sinks comes to a position with none below. -/
lemma OrderedBut.sink (h : OrderedBut heap k) (hk : k < heap.size) :
    OrderedBut (sink heap k).1 (sink heap k).2 ∧
      ∀ i, Below i (CostQueue.sink heap k).2 → (CostQueue.sink heap k).1.size ≤ i := by
  fun_induction CostQueue.sink heap k with
  | case1 heap k inside below hb _ ih =>
    have choice : below = 2 * k + 1 ∧ heap[2 * k + 1].cost < heap[2 * k + 2].cost ∨
        below = 2 * k + 2 ∧ ¬ heap[2 * k + 1].cost < heap[2 * k + 2].cost := by
      by_cases less : heap[2 * k + 1].cost < heap[2 * k + 2].cost
      · exact .inl ⟨if_pos less, less⟩
      · exact .inr ⟨if_neg less, less⟩
    refine ih (h.descend hk hb (choice.imp And.left And.left) ?_) (by simpa using hb)
    clear_value below
    rintro i hi (rfl | rfl)
    · rcases choice with ⟨rfl, _⟩ | ⟨rfl, dearer⟩
      · exact Nat.le_refl _
      · exact Nat.le_of_not_lt dearer
    · rcases choice with ⟨rfl, less⟩ | ⟨rfl, _⟩
      · exact Nat.le_of_lt less
      · exact Nat.le_refl _
  | case2 heap k narrow inside =>
    refine ⟨h.descend hk inside (.inl rfl) ?_, ?_⟩
    · intro i hi under
      have same : i = 2 * k + 1 := by
        unfold Below at under
        omega
      simp only [same]
      exact Nat.le_refl _
    · intro i under
      rw [Array.size_swap]
      unfold Below at under
      omega
  | case3 heap k narrow outside =>
    refine ⟨h, ?_⟩
    intro i under
    show heap.size ≤ i
    unfold Below at under
    omega

/-! ## Queues -/

/-- What waits in a queue. -/
def toList (q : CostQueue) : List Entry := q.heap.toList

/-- No entry of the queue costs less than the one above it. -/
def Ordered (q : CostQueue) : Prop := OrderedHeap q.heap

variable {q rest : CostQueue} {e : Entry} {cost node : Nat}

lemma toList_push (q : CostQueue) (cost node : Nat) :
    (q.push cost node).toList.Perm (⟨cost, node⟩ :: q.toList) := by
  have same := (lift_perm (q.heap.push ⟨cost, node⟩) q.heap.size).toList
  rw [Array.toList_push] at same
  exact same.trans (List.perm_append_singleton _ _)

lemma Ordered.push (h : q.Ordered) : (q.push cost node).Ordered := by
  refine (OrderedHeap.push h _).lift ?_
  intro i hi hk under
  rw [Array.size_push] at hi
  have := under.lt
  omega

lemma OrderedHeap.top_le (h : OrderedHeap heap) (h0 : 0 < heap.size) (hk : k < heap.size) :
    heap[0].cost ≤ heap[k].cost := by
  induction k using Nat.strongRecOn with
  | ind k ih =>
    by_cases top : k = 0
    · subst top
      exact Nat.le_refl _
    · have under := below_above (Nat.pos_of_ne_zero top)
      have inside : (k - 1) / 2 < heap.size := Nat.lt_trans under.lt hk
      exact Nat.le_trans (ih _ under.lt inside) (h k _ hk inside under)

/-- Nothing is cheaper than what stands at the top. -/
lemma OrderedHeap.first_le (h : OrderedHeap heap) (front : heap[0]? = some e) :
    ∀ e' ∈ heap.toList, e.cost ≤ e'.cost := by
  intro e' member
  obtain ⟨inside, rfl⟩ := Array.getElem?_eq_some_iff.mp front
  obtain ⟨k, hk, rfl⟩ := Array.getElem_of_mem (Array.mem_toList_iff.mp member)
  exact h.top_le inside hk

/-- What stays of several entries once the first one is gone: the last one takes its place, and is moved from
there. -/
def refilled (heap : Array Entry) (last : Entry) : Array Entry :=
  let moved := sink (heap.pop.setIfInBounds 0 last) 0
  lift moved.1 moved.2

lemma pop?_of_cons {between : List Entry} {last : Entry} :
    pop? ⟨⟨e :: (between ++ [last])⟩⟩ = some (e, ⟨refilled ⟨e :: (between ++ [last])⟩ last⟩) := by
  have back : (⟨e :: (between ++ [last])⟩ : Array Entry).back? = some last := by
    rw [Array.back?_eq_getElem?]
    simp
  have front : (e :: (between ++ [last])).dropLast = e :: between := by
    rw [← List.cons_append, List.dropLast_concat]
  unfold pop?
  rw [back]
  simp [refilled, front]

lemma pop?_cases (q : CostQueue) :
    q.toList = [] ∧ q.pop? = none ∨
      (∃ e, q.toList = [e] ∧ q.pop? = some (e, {})) ∨
      ∃ e between last, q.toList = e :: (between ++ [last]) ∧ q.pop? = some (e, ⟨refilled q.heap last⟩) := by
  obtain ⟨⟨entries⟩⟩ := q
  cases entries with
  | nil => exact .inl ⟨rfl, rfl⟩
  | cons e rest =>
    rcases List.eq_nil_or_concat rest with rfl | ⟨between, last, rfl⟩
    · exact .inr (.inl ⟨e, rfl, rfl⟩)
    · rw [List.concat_eq_append]
      exact .inr (.inr ⟨e, between, last, rfl, pop?_of_cons⟩)

lemma pop?_eq_none (h : q.pop? = none) : q.toList = [] := by
  rcases q.pop?_cases with ⟨empty, _⟩ | ⟨e, _, popped⟩ | ⟨e, between, last, _, popped⟩
  · exact empty
  · rw [popped] at h
    cases h
  · rw [popped] at h
    cases h

/-- The order may fail at the top once the last entry is there. -/
lemma OrderedHeap.refill (h : OrderedHeap heap) (last : Entry) :
    OrderedBut (heap.pop.setIfInBounds 0 last) 0 := by
  constructor
  case elsewhere =>
    intro i j hi hj under other other'
    rw [Array.size_setIfInBounds] at hi hj
    rw [Array.getElem_setIfInBounds_ne hi other.symm, Array.getElem_setIfInBounds_ne hj other'.symm,
      Array.getElem_pop, Array.getElem_pop]
    exact h i j _ _ under
  case across =>
    intro i j hi hj under above
    exact absurd above.lt (Nat.not_lt_zero j)

lemma OrderedHeap.refilled (h : OrderedHeap heap) (last : Entry) (many : 1 < heap.size) :
    OrderedHeap (refilled heap last) := by
  have inside : 0 < (heap.pop.setIfInBounds 0 last).size := by
    rw [Array.size_setIfInBounds, Array.size_pop]
    omega
  obtain ⟨sunk, bottom⟩ := (h.refill last).sink inside
  refine sunk.lift ?_
  intro i hi _ under
  exact absurd hi (Nat.not_lt.mpr (bottom i under))

lemma refilled_perm {between : List Entry} {last : Entry} (h : heap.toList = e :: (between ++ [last])) :
    heap.toList.Perm (e :: (refilled heap last).toList) := by
  have moved : (refilled heap last).toList.Perm (heap.pop.setIfInBounds 0 last).toList :=
    ((lift_perm _ _).trans (sink_perm _ _)).toList
  have there : (heap.pop.setIfInBounds 0 last).toList = last :: between := by
    rw [Array.toList_setIfInBounds, Array.toList_pop, h, ← List.cons_append, List.dropLast_concat]
    rfl
  rw [there] at moved
  rw [h]
  exact ((List.perm_append_singleton _ _).trans moved.symm).cons e

/-- Taking an entry takes it and nothing else, and none that stays is cheaper. -/
lemma Ordered.pop (h : q.Ordered) (popped : q.pop? = some (e, rest)) :
    rest.Ordered ∧ q.toList.Perm (e :: rest.toList) ∧ ∀ e' ∈ q.toList, e.cost ≤ e'.cost := by
  rcases q.pop?_cases with ⟨_, popped'⟩ | ⟨e', only, popped'⟩ | ⟨e', between, last, listed, popped'⟩
  · rw [popped'] at popped
    cases popped
  · rw [popped'] at popped
    cases popped
    refine ⟨?_, only ▸ .rfl, ?_⟩
    · intro i j hi
      exact absurd hi (Nat.not_lt_zero i)
    · rw [only]
      simp
  · rw [popped'] at popped
    cases popped
    have many : 1 < q.heap.size := by
      rw [← Array.length_toList, show q.heap.toList = _ from listed]
      simp
    refine ⟨OrderedHeap.refilled h last many, refilled_perm listed, ?_⟩
    intro e' member
    have front : q.heap.toList[0]? = some e := by
      rw [show q.heap.toList = _ from listed]
      rfl
    exact OrderedHeap.first_le h (by simpa using front) e' member

end RideDispatch.CostQueue

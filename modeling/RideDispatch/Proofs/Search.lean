import Mathlib.Algebra.GroupWithZero.Nat
import Mathlib.Data.List.Nodup
import Mathlib.Data.List.Perm.Subperm
import RideDispatch.Graph.Search
import RideDispatch.Proofs.CostQueue

/-!
# Searches for shortest paths

A `Walk` follows the arcs of a graph and adds up their costs. What a search knows between two steps is `Sound`:
every label has been reached along an arc from a settled one, so the labels before it lead back to the source
(`History.trail`); the settled labels are no dearer than what waits (`Sound.late`), so they are final; and every
arc that leaves one of them has been followed. While the arcs of the label that has just been settled are being
followed, some of them are owed (`Owing`). An arc is followed by `Sound.relabel`, a step is taken by `Sound.step`,
and where the arcs are finitely many (`Confined`) enough steps leave nothing to wait (`Sound.runFor`). Then the
distances are the least ones (`run_shortest`).
-/

namespace RideDispatch.Search

/-- The graph has an arc from one node to another at a cost. -/
def Joins (arcs : Nat → Option (List Arc)) (u v cost : Nat) : Prop :=
  ∃ out, arcs u = some out ∧ ⟨v, cost⟩ ∈ out

/-- The nodes of a walk along arcs, its end and its cost. -/
inductive Walk (arcs : Nat → Option (List Arc)) : Nat → List Nat → Nat → Nat → Prop
  | here (u : Nat) : Walk arcs u [u] u 0
  | step {u v w cost rest : Nat} {nodes : List Nat} :
    Joins arcs u v cost →
    Walk arcs v nodes w rest →
    Walk arcs u (u :: nodes) w (cost + rest)

variable {arcs : Nat → Option (List Arc)} {source : Nat} {labels labels' : Array Label} {l : Label}
variable {done earlier : List Label}

lemma Walk.snoc {u v w cost last : Nat} {nodes : List Nat} (h : Walk arcs u nodes v cost)
    (joined : Joins arcs v w last) : Walk arcs u (nodes ++ [w]) w (cost + last) := by
  induction h with
  | here u =>
    rw [Nat.zero_add]
    exact .step joined (.here w)
  | step first _ ih =>
    rw [Nat.add_assoc]
    exact .step first (ih joined)

/-! ## Labels and their parents -/

/-- A label is that of the source, or it has been reached along an arc from one of some earlier labels. -/
inductive Founded (arcs : Nat → Option (List Arc)) (source : Nat) (labels : Array Label)
    (earlier : List Label) (l : Label) : Prop
  | source : l.node = source → l.parent = none → l.cost = 0 → Founded arcs source labels earlier l
  | arc {p cost : Nat} {parent : Label} :
    l.parent = some p →
    labels[p]? = some parent →
    parent ∈ earlier →
    Joins arcs parent.node l.node cost →
    l.cost = parent.cost + cost →
    Founded arcs source labels earlier l

/-- The settled labels, the latest one first. -/
inductive History (arcs : Nat → Option (List Arc)) (source : Nat) (labels : Array Label) : List Label → Prop
  | nil : History arcs source labels []
  | settle {l : Label} {earlier : List Label} :
    l.settled = true →
    Founded arcs source labels earlier l →
    History arcs source labels earlier →
    History arcs source labels (l :: earlier)

/-- Settled labels stay what they are. -/
def Keeps (labels labels' : Array Label) : Prop :=
  ∀ (i : Nat) (l : Label), labels[i]? = some l → l.settled = true → labels'[i]? = some l

lemma Founded.mono (h : Founded arcs source labels earlier l) (kept : Keeps labels labels')
    (settled : ∀ l ∈ earlier, l.settled = true) (more : earlier ⊆ done) :
    Founded arcs source labels' done l := by
  cases h with
  | source own root free => exact .source own root free
  | arc parent found member joined cost =>
    exact .arc parent (kept _ _ found (settled _ member)) (more member) joined cost

/-- The label once it is settled. -/
def Label.settle (l : Label) : Label := { l with settled := true }

lemma Founded.settle (h : Founded arcs source labels earlier l) :
    Founded arcs source labels earlier l.settle := by
  cases h with
  | source own root free => exact .source own root free
  | arc parent found member joined cost => exact .arc parent found member joined cost

lemma History.settled (h : History arcs source labels done) : ∀ l ∈ done, l.settled = true := by
  induction h with
  | nil => exact List.forall_mem_nil _
  | settle settled _ _ ih => exact List.forall_mem_cons.mpr ⟨settled, ih⟩

lemma History.mono (h : History arcs source labels done) (kept : Keeps labels labels') :
    History arcs source labels' done := by
  induction h with
  | nil => exact .nil
  | settle settled founded earlier ih =>
    exact .settle settled (founded.mono kept earlier.settled (List.Subset.refl _)) ih

/-- From a settled label the parents lead back to the source. -/
lemma History.trail (h : History arcs source labels done) {i bound : Nat} (member : l ∈ done)
    (found : labels[i]? = some l) (enough : done.length ≤ bound) (nodes : List Nat) :
    ∃ before, trail labels bound i nodes = before ++ nodes ∧ Walk arcs source before l.node l.cost := by
  induction h generalizing l i bound nodes with
  | nil => cases member
  | @settle last earlier settled founded _ ih =>
    rcases List.mem_cons.mp member with rfl | member
    · obtain ⟨bound, rfl⟩ : ∃ b, bound = b + 1 := ⟨bound - 1, by
        rw [List.length_cons] at enough
        omega⟩
      unfold Search.trail
      simp only [found]
      cases founded with
      | source own root free =>
        simp only [root]
        refine ⟨[l.node], rfl, ?_⟩
        rw [own, free]
        exact .here source
      | arc parent found' member' joined cost =>
        simp only [parent]
        obtain ⟨before, walked, walk⟩ := ih member' found' (Nat.le_of_succ_le_succ enough) (l.node :: nodes)
        refine ⟨before ++ [l.node], ?_, ?_⟩
        · rw [walked, List.append_assoc]
          rfl
        · rw [cost]
          exact walk.snoc joined
    · rw [List.length_cons] at enough
      exact ih member found (Nat.le_of_succ_le enough) nodes

/-! ## What a search knows -/

/-- What a search knows is right, except that some arcs from settled labels are still to be followed. -/
structure Sound (arcs : Nat → Option (List Arc)) (source : Nat) (done : List Label)
    (owed : Label → Arc → Prop) (s : Search) : Prop where
  numbered : ∀ v i, s.numbers[v]? = some i ↔ ∃ l : Label, s.labels[i]? = some l ∧ l.node = v
  mem_done : ∀ l, l ∈ done ↔ l ∈ s.labels ∧ l.settled = true
  nodup : (done.map Label.node).Nodup
  history : History arcs source s.labels done
  founded : ∀ l ∈ s.labels, Founded arcs source s.labels done l
  begun : ∃ l ∈ s.labels, l.node = source ∧ l.cost = 0
  ordered : s.queue.Ordered
  queued : ∀ e ∈ s.queue.toList, ∃ l, s.labels[e.node]? = some l ∧ l.cost ≤ e.cost
  waiting : ∀ i l, s.labels[i]? = some l → l.settled = false → ⟨l.cost, i⟩ ∈ s.queue.toList
  late : ∀ l ∈ done, ∀ e ∈ s.queue.toList, l.cost ≤ e.cost
  followed : ∀ l ∈ done, ∀ v cost, Joins arcs l.node v cost →
    owed l ⟨v, cost⟩ ∨ ∃ l' ∈ s.labels, l'.node = v ∧ l'.cost ≤ l.cost + cost
  inside : s.astray = false

/-- Nothing is owed. -/
def Nothing (_ : Label) (_ : Arc) : Prop := False

/-- Some of the arcs from one label are owed. -/
def Owing (u : Label) (out : List Arc) (l : Label) (a : Arc) : Prop := l = u ∧ a ∈ out

variable {s s' : Search} {owed : Label → Arc → Prop} {i : Nat}

lemma Sound.number_unique (h : Sound arcs source done owed s) {i j : Nat} {l l' : Label}
    (found : s.labels[i]? = some l) (found' : s.labels[j]? = some l') (same : l.node = l'.node) :
    i = j := by
  have first := (h.numbered _ _).mpr ⟨l, found, rfl⟩
  have second := (h.numbered _ _).mpr ⟨l', found', same.symm⟩
  exact Option.some.inj (first.symm.trans second)

/-! ## Reaching a node -/

/-- A label has been written over one for the same node that was not settled and not cheaper, or where there was
none. -/
structure Overwrites (labels : Array Label) (i : Nat) (new : Label) (labels' : Array Label) : Prop where
  written : ∀ j, labels'[j]? = if j = i then some new else labels[j]?
  old : ∀ l, labels[i]? = some l → l.settled = false ∧ l.node = new.node ∧ new.cost ≤ l.cost

namespace Overwrites

variable {new : Label}

lemma keeps (h : Overwrites labels i new labels') : Keeps labels labels' := by
  intro j l found settled
  rw [h.written]
  by_cases here : j = i
  · subst here
    rw [(h.old l found).1] at settled
    cases settled
  · rw [if_neg here]
    exact found

lemma mem_new (h : Overwrites labels i new labels') : new ∈ labels' := by
  apply Array.mem_of_getElem? (i := i)
  rw [h.written, if_pos rfl]

/-- Every label is the new one or has been there before. -/
lemma mem_inv (h : Overwrites labels i new labels') (member : l ∈ labels') : l = new ∨ l ∈ labels := by
  obtain ⟨j, found⟩ := Array.mem_iff_getElem?.mp member
  rw [h.written] at found
  split at found
  · cases found
    exact .inl rfl
  · exact .inr (Array.mem_of_getElem? found)

/-- At every number at which there was a label there is one that is not dearer. -/
lemma cheaper_at (h : Overwrites labels i new labels') {j : Nat} (found : labels[j]? = some l) :
    ∃ l', labels'[j]? = some l' ∧ l'.node = l.node ∧ l'.cost ≤ l.cost := by
  rw [h.written]
  by_cases here : j = i
  · subst here
    obtain ⟨_, same, less⟩ := h.old l found
    exact ⟨new, if_pos rfl, same.symm, less⟩
  · exact ⟨l, (if_neg here).trans found, rfl, Nat.le_refl _⟩

/-- Every node is still as near as it was. -/
lemma within (h : Overwrites labels i new labels') {v bound : Nat}
    (before : ∃ l ∈ labels, l.node = v ∧ l.cost ≤ bound) : ∃ l ∈ labels', l.node = v ∧ l.cost ≤ bound := by
  obtain ⟨l, member, own, less⟩ := before
  obtain ⟨j, found⟩ := Array.mem_iff_getElem?.mp member
  obtain ⟨l', there, same, less'⟩ := h.cheaper_at found
  exact ⟨l', Array.mem_of_getElem? there, same.trans own, Nat.le_trans less' less⟩

/-- The source still costs nothing. -/
lemma begun (h : Overwrites labels i new labels') (before : ∃ l ∈ labels, l.node = source ∧ l.cost = 0) :
    ∃ l ∈ labels', l.node = source ∧ l.cost = 0 := by
  simp only [← Nat.le_zero] at *
  exact h.within before

end Overwrites

/-- A node has been given a label that is not settled, a new one or a cheaper one than before. -/
structure Relabels (s : Search) (i : Nat) (new : Label) (s' : Search) : Prop where
  labels : Overwrites s.labels i new s'.labels
  numbers : ∀ v, s'.numbers[v]? = if new.node = v then some i else s.numbers[v]?
  queue : s'.queue = s.queue.push new.cost i
  astray : s'.astray = s.astray
  open_ : new.settled = false
  fresh : ∀ j l, s.labels[j]? = some l → l.node = new.node → j = i

/-- Reaching a node at a cost relabels it, unless its label is as cheap already. -/
lemma Sound.reach_cases (h : Sound arcs source done owed s) (p v cost : Nat)
    (late : ∀ l ∈ done, l.cost ≤ cost) :
    (s.reach p v cost = s ∧ ∃ l ∈ s.labels, l.node = v ∧ l.cost ≤ cost) ∨
      ∃ i, Relabels s i ⟨v, some p, cost, false⟩ (s.reach p v cost) := by
  unfold reach
  cases found : s.numbers[v]? with
  | none =>
    refine .inr ⟨s.labels.size, ⟨?_, ?_⟩, ?_, rfl, rfl, rfl, ?_⟩
    · intro j
      exact Array.getElem?_push
    · intro l there
      rw [Array.getElem?_eq_none (Nat.le_refl _)] at there
      cases there
    · intro w
      simp only [Std.TreeMap.getElem?_insert, Std.compare_eq_iff_eq]
    · intro j l there same
      have numbered := (h.numbered v j).mpr ⟨l, there, same⟩
      rw [found] at numbered
      cases numbered
  | some i =>
    obtain ⟨l, there, own⟩ := (h.numbered v i).mp found
    simp only [there]
    by_cases cheaper : cost < l.cost
    · rw [if_pos cheaper]
      have open_ : l.settled = false := by
        by_contra settled
        have member := (h.mem_done l).mpr ⟨Array.mem_of_getElem? there, by simpa using settled⟩
        exact Nat.not_lt.mpr (late l member) cheaper
      have new : { l with parent := some p, cost := cost } = (⟨v, some p, cost, false⟩ : Label) := by
        rw [← own, ← open_]
      refine .inr ⟨i, ⟨?_, ?_⟩, ?_, rfl, rfl, rfl, ?_⟩
      · intro j
        rw [new, Array.getElem?_setIfInBounds, if_pos (Array.getElem?_eq_some_iff.mp there).1]
        simp only [eq_comm]
      · intro l' there'
        obtain rfl := Option.some.inj (there.symm.trans there')
        exact ⟨open_, own, Nat.le_of_lt cheaper⟩
      · intro w
        split
        · rename_i same
          rw [← same]
          exact found
        · rfl
      · intro j l' there' same
        exact h.number_unique there' there (same.trans own.symm)
    · rw [if_neg cheaper]
      exact .inl ⟨rfl, l, Array.mem_of_getElem? there, own, Nat.le_of_not_lt cheaper⟩

lemma Relabels.mem_queue {new : Label} (h : Relabels s i new s') {e : CostQueue.Entry} :
    e ∈ s'.queue.toList ↔ e = ⟨new.cost, i⟩ ∨ e ∈ s.queue.toList := by
  rw [h.queue, (CostQueue.toList_push _ _ _).mem_iff, List.mem_cons]

/-- An arc is owed no longer once its target is near enough. -/
lemma Sound.paid {u : Label} {a : Arc} {rest : List Arc} (h : Sound arcs source done (Owing u (a :: rest)) s)
    (within : ∀ v bound, (∃ l ∈ s.labels, l.node = v ∧ l.cost ≤ bound) →
      ∃ l ∈ labels', l.node = v ∧ l.cost ≤ bound)
    (near : ∃ l ∈ labels', l.node = a.target ∧ l.cost ≤ u.cost + a.cost) :
    ∀ l ∈ done, ∀ v cost, Joins arcs l.node v cost →
      Owing u rest l ⟨v, cost⟩ ∨ ∃ l' ∈ labels', l'.node = v ∧ l'.cost ≤ l.cost + cost := by
  intro l member v cost joined
  cases h.followed l member v cost joined with
  | inl owed =>
    obtain ⟨rfl, listed⟩ := owed
    rcases List.mem_cons.mp listed with rfl | later
    · exact .inr near
    · exact .inl ⟨rfl, later⟩
  | inr reached => exact .inr (within v _ reached)

/-- The number of each node is still that of its label. -/
lemma Sound.numbered_of_relabels {new : Label} (h : Sound arcs source done owed s)
    (relabels : Relabels s i new s') (v j : Nat) :
    s'.numbers[v]? = some j ↔ ∃ l : Label, s'.labels[j]? = some l ∧ l.node = v := by
  have writes := relabels.labels
  rw [relabels.numbers, writes.written]
  by_cases here : j = i
  · subst here
    rw [if_pos rfl]
    by_cases own : new.node = v
    · simp [own]
    · rw [if_neg own, h.numbered]
      constructor
      · rintro ⟨l, there, same⟩
        exact absurd ((writes.old l there).2.1.symm.trans same) own
      · rintro ⟨l, new_, same⟩
        cases new_
        exact absurd same own
  · rw [if_neg here]
    by_cases own : new.node = v
    · rw [if_pos own]
      constructor
      · intro same
        exact absurd (Option.some.inj same).symm here
      · rintro ⟨l, there, same⟩
        exact absurd (relabels.fresh j l there (same.trans own.symm)) here
    · rw [if_neg own]
      exact h.numbered v j

/-- A search that follows an arc from a settled label to a node owes one arc less. -/
lemma Sound.relabel {u new : Label} {a : Arc} {rest : List Arc} {k : Nat}
    (h : Sound arcs source done (Owing u (a :: rest)) s) (relabels : Relabels s i new s')
    (found : s.labels[k]? = some u) (member : u ∈ done) (latest : ∀ l ∈ done, l.cost ≤ u.cost)
    (joined : Joins arcs u.node a.target a.cost) (node : new.node = a.target)
    (parent : new.parent = some k) (cost : new.cost = u.cost + a.cost) :
    Sound arcs source done (Owing u rest) s' := by
  have writes := relabels.labels
  have kept := writes.keeps
  have settled := h.history.settled
  constructor
  case numbered => exact h.numbered_of_relabels relabels
  case mem_done =>
    intro l
    rw [h.mem_done]
    constructor
    · rintro ⟨there, settled⟩
      obtain ⟨j, found⟩ := Array.mem_iff_getElem?.mp there
      exact ⟨Array.mem_of_getElem? (kept j l found settled), settled⟩
    · rintro ⟨there, settled⟩
      cases writes.mem_inv there with
      | inl new_ =>
        subst new_
        rw [relabels.open_] at settled
        cases settled
      | inr old => exact ⟨old, settled⟩
  case nodup => exact h.nodup
  case history => exact h.history.mono kept
  case founded =>
    intro l member'
    cases writes.mem_inv member' with
    | inl new_ =>
      subst new_
      exact .arc parent (kept k u found (settled u member)) member (node ▸ joined) cost
    | inr old => exact (h.founded l old).mono kept settled (List.Subset.refl _)
  case begun => exact writes.begun h.begun
  case ordered =>
    rw [relabels.queue]
    exact h.ordered.push
  case queued =>
    intro e waits
    cases relabels.mem_queue.mp waits with
    | inl new_ =>
      subst new_
      exact ⟨new, (writes.written i).trans (if_pos rfl), Nat.le_refl _⟩
    | inr old =>
      obtain ⟨l, there, less⟩ := h.queued e old
      obtain ⟨l', there', _, less'⟩ := writes.cheaper_at there
      exact ⟨l', there', Nat.le_trans less' less⟩
  case waiting =>
    intro j l there unsettled
    rw [relabels.mem_queue]
    rw [writes.written] at there
    split at there
    · rename_i here
      cases there
      exact .inl (here ▸ rfl)
    · exact .inr (h.waiting j l there unsettled)
  case late =>
    intro l member' e waits
    cases relabels.mem_queue.mp waits with
    | inl new_ =>
      subst new_
      have := latest l member'
      show l.cost ≤ new.cost
      omega
    | inr old => exact h.late l member' e old
  case followed => exact h.paid (fun _ _ => writes.within) ⟨new, writes.mem_new, node, Nat.le_of_eq cost⟩
  case inside => rw [relabels.astray, h.inside]

/-- One arc after the other is followed from a settled label. -/
lemma Sound.follow {u : Label} {k : Nat} {out : List Arc} (h : Sound arcs source done (Owing u out) s)
    (found : s.labels[k]? = some u) (member : u ∈ done) (latest : ∀ l ∈ done, l.cost ≤ u.cost)
    (joined : ∀ a ∈ out, Joins arcs u.node a.target a.cost) :
    Sound arcs source done Nothing
        (out.foldl (fun s a => s.reach k a.target (u.cost + a.cost)) s) ∧
      (out.foldl (fun s a => s.reach k a.target (u.cost + a.cost)) s).queue.toList.length ≤
        s.queue.toList.length + out.length := by
  induction out generalizing s with
  | nil =>
    refine ⟨{ h with followed := ?_ }, Nat.le_refl _⟩
    intro l member' v cost joined'
    refine .inr ((h.followed l member' v cost joined').resolve_left ?_)
    rintro ⟨_, listed⟩
    cases listed
  | cons a rest ih =>
    obtain ⟨first, joined⟩ := List.forall_mem_cons.mp joined
    have cheap : ∀ l ∈ done, l.cost ≤ u.cost + a.cost :=
      fun l member' => Nat.le_trans (latest l member') (Nat.le_add_right _ _)
    rw [List.foldl_cons, List.length_cons]
    rcases h.reach_cases k a.target (u.cost + a.cost) cheap with ⟨same, there⟩ | ⟨i, relabels⟩
    · rw [same]
      have next : Sound arcs source done (Owing u rest) s :=
        { h with followed := h.paid (fun _ _ near => near) there }
      obtain ⟨sound, few⟩ := ih next found joined
      exact ⟨sound, by omega⟩
    · have next := h.relabel relabels found member latest first rfl rfl rfl
      obtain ⟨sound, few⟩ := ih next (relabels.labels.keeps k u found (h.history.settled u member)) joined
      have one : (s.reach k a.target (u.cost + a.cost)).queue.toList.length = s.queue.toList.length + 1 := by
        rw [relabels.queue, (CostQueue.toList_push _ _ _).length_eq, List.length_cons]
      exact ⟨sound, by omega⟩

/-! ## Settling a node -/

variable {e : CostQueue.Entry} {rest : CostQueue}

/-- An entry for a label that is settled already does nothing. -/
lemma Sound.skip (h : Sound arcs source done Nothing s) (popped : s.queue.pop? = some (e, rest))
    (found : s.labels[e.node]? = some l) (settled : l.settled = true) :
    Sound arcs source done Nothing { s with queue := rest } := by
  obtain ⟨ordered, parts, _⟩ := h.ordered.pop popped
  refine { h with ordered := ordered, queued := ?_, waiting := ?_, late := ?_ }
  · intro e' waits
    exact h.queued e' (parts.mem_iff.mpr (List.mem_cons_of_mem _ waits))
  · intro i l' there unsettled
    cases List.mem_cons.mp (parts.mem_iff.mp (h.waiting i l' there unsettled)) with
    | inl own =>
      subst own
      obtain rfl := Option.some.inj (found.symm.trans there)
      rw [settled] at unsettled
      cases unsettled
    | inr stays => exact stays
  · intro l' member e' waits
    exact h.late l' member e' (parts.mem_iff.mpr (List.mem_cons_of_mem _ waits))

/-- The first entry for a label gives its cost. -/
lemma Sound.cost_eq (h : Sound arcs source done owed s) (popped : s.queue.pop? = some (e, rest))
    (found : s.labels[e.node]? = some l) (unsettled : l.settled = false) : e.cost = l.cost := by
  obtain ⟨_, parts, least⟩ := h.ordered.pop popped
  obtain ⟨l', there, less⟩ := h.queued e (parts.mem_iff.mpr List.mem_cons_self)
  obtain rfl := Option.some.inj (found.symm.trans there)
  exact Nat.le_antisymm (least _ (h.waiting _ _ found unsettled)) less

/-- The cheapest label that waits may be settled; then its arcs are owed. -/
lemma Sound.settle {out : List Arc} (h : Sound arcs source done Nothing s)
    (popped : s.queue.pop? = some (e, rest)) (found : s.labels[e.node]? = some l)
    (unsettled : l.settled = false) (leaving : arcs l.node = some out) :
    Sound arcs source (l.settle :: done) (Owing l.settle out)
      { s with queue := rest, labels := s.labels.setIfInBounds e.node l.settle } := by
  obtain ⟨ordered, parts, least⟩ := h.ordered.pop popped
  have cost := h.cost_eq popped found unsettled
  have writes : Overwrites s.labels e.node l.settle (s.labels.setIfInBounds e.node l.settle) := by
    constructor
    · intro j
      rw [Array.getElem?_setIfInBounds, if_pos (Array.getElem?_eq_some_iff.mp found).1]
      simp only [eq_comm]
    · intro l' there
      obtain rfl := Option.some.inj (found.symm.trans there)
      exact ⟨unsettled, rfl, Nat.le_refl _⟩
  have kept := writes.keeps
  have settled := h.history.settled
  have founded := ((h.founded l (Array.mem_of_getElem? found)).mono kept settled (List.Subset.refl _)).settle
  constructor
  case numbered =>
    intro v i
    rw [h.numbered, writes.written]
    split
    · rename_i here
      subst here
      simp [found, Label.settle]
    · rfl
  case mem_done =>
    intro l'
    rw [List.mem_cons, h.mem_done]
    constructor
    · rintro (rfl | ⟨there, settled⟩)
      · exact ⟨writes.mem_new, rfl⟩
      · obtain ⟨j, found'⟩ := Array.mem_iff_getElem?.mp there
        exact ⟨Array.mem_of_getElem? (kept j l' found' settled), settled⟩
    · rintro ⟨there, settled⟩
      exact (writes.mem_inv there).imp_right fun old => ⟨old, settled⟩
  case nodup =>
    refine List.nodup_cons.mpr ⟨?_, h.nodup⟩
    intro twice
    obtain ⟨l', member, same⟩ := List.mem_map.mp twice
    obtain ⟨j, found'⟩ := Array.mem_iff_getElem?.mp ((h.mem_done l').mp member).1
    obtain rfl := h.number_unique found' found same
    obtain rfl := Option.some.inj (found.symm.trans found')
    rw [settled l member] at unsettled
    cases unsettled
  case history => exact .settle rfl founded (h.history.mono kept)
  case founded =>
    intro l' there
    cases writes.mem_inv there with
    | inl new =>
      subst new
      exact founded.mono (fun _ _ found _ => found) settled (List.subset_cons_self _ _)
    | inr old => exact (h.founded l' old).mono kept settled (List.subset_cons_self _ _)
  case begun => exact writes.begun h.begun
  case ordered => exact ordered
  case queued =>
    intro e' waits
    obtain ⟨l', there, less⟩ := h.queued e' (parts.mem_iff.mpr (List.mem_cons_of_mem _ waits))
    obtain ⟨l'', there', _, less'⟩ := writes.cheaper_at there
    exact ⟨l'', there', Nat.le_trans less' less⟩
  case waiting =>
    intro i l' there unsettled'
    rw [writes.written] at there
    split at there
    · cases there
      cases unsettled'
    · rename_i other
      refine (List.mem_cons.mp (parts.mem_iff.mp (h.waiting i l' there unsettled'))).resolve_left ?_
      rintro rfl
      exact other rfl
  case late =>
    intro l' member e' waits
    have there := parts.mem_iff.mpr (List.mem_cons_of_mem _ waits)
    rcases List.mem_cons.mp member with rfl | earlier
    · exact cost ▸ least e' there
    · exact h.late l' earlier e' there
  case followed =>
    intro l' member v cost' joined
    rcases List.mem_cons.mp member with rfl | earlier
    · obtain ⟨out', leaving', listed⟩ := joined
      obtain rfl := Option.some.inj (leaving.symm.trans leaving')
      exact .inl ⟨rfl, listed⟩
    · exact .inr (writes.within ((h.followed l' earlier v cost' joined).resolve_left id))
  case inside => exact h.inside

/-! ## Running -/

/-- The number of arcs that leave a node. -/
def degree (arcs : Nat → Option (List Arc)) (v : Nat) : Nat := ((arcs v).getD []).length

/-- The number of arcs that leave the nodes of some labels. -/
def spent (arcs : Nat → Option (List Arc)) (done : List Label) : Nat :=
  (done.map fun l => degree arcs l.node).sum

/-- Walks from a node stay in the graph, which has a limited number of arcs. -/
structure Confined (arcs : Nat → Option (List Arc)) (source arcCount : Nat) : Prop where
  inside : ∀ nodes v cost, Walk arcs source nodes v cost → ∃ out, arcs v = some out
  few : ∀ nodes : List Nat, nodes.Nodup → (nodes.map (degree arcs)).sum ≤ arcCount

variable {arcCount : Nat}

/-- There is a walk to each label at its cost. -/
lemma Sound.walk (h : Sound arcs source done owed s) (member : l ∈ s.labels) :
    ∃ nodes, Walk arcs source nodes l.node l.cost := by
  cases h.founded l member with
  | source own root free =>
    rw [own, free]
    exact ⟨_, .here source⟩
  | arc parent found member joined cost =>
    obtain ⟨before, _, walk⟩ := h.history.trail member found (Nat.le_refl _) []
    rw [cost]
    exact ⟨_, walk.snoc joined⟩

lemma sound_start (arcs : Nat → Option (List Arc)) (source : Nat) :
    Sound arcs source [] Nothing (start source) := by
  have first (i : Nat) : (start source).labels[i]? = if i = 0 then some ⟨source, none, 0, false⟩ else none := by
    cases i <;> rfl
  have only (l : Label) (member : l ∈ (start source).labels) : l = ⟨source, none, 0, false⟩ := by
    simpa [start] using member
  have waits : (start source).queue.toList = [⟨0, 0⟩] := by
    have same := CostQueue.toList_push {} 0 0
    exact List.perm_singleton.mp same
  constructor
  case numbered =>
    intro v i
    rw [first]
    simp only [start, Std.TreeMap.getElem?_insert, Std.compare_eq_iff_eq, Std.TreeMap.getElem?_emptyc]
    constructor
    · intro numbered
      split at numbered
      · cases numbered
        exact ⟨_, if_pos rfl, ‹_›⟩
      · cases numbered
    · rintro ⟨l, there, own⟩
      split at there
      · rename_i here
        cases there
        rw [if_pos own, here]
      · cases there
  case mem_done =>
    intro l
    constructor
    · exact nofun
    · rintro ⟨there, settled⟩
      obtain rfl := only l there
      cases settled
  case nodup => exact .nil
  case history => exact .nil
  case founded =>
    intro l member
    obtain rfl := only l member
    exact .source rfl rfl rfl
  case begun => exact ⟨⟨source, none, 0, false⟩, Array.mem_of_getElem? (first 0), rfl, rfl⟩
  case ordered =>
    have empty : ({} : CostQueue).Ordered := fun i j hi => absurd hi (Nat.not_lt_zero i)
    exact empty.push
  case queued =>
    intro e member
    rw [waits] at member
    obtain rfl := List.mem_singleton.mp member
    exact ⟨_, first 0, Nat.le_refl _⟩
  case waiting =>
    intro i l found _
    rw [first] at found
    split at found
    · rename_i here
      cases found
      rw [waits, here]
      exact List.mem_singleton.mpr rfl
    · cases found
  case late => exact List.forall_mem_nil _
  case followed => exact List.forall_mem_nil _
  case inside => rfl

/-- A step takes an entry from the queue; if it settles a node it adds at most one for each of its arcs. -/
lemma Sound.step (h : Sound arcs source done Nothing s) (confined : Confined arcs source arcCount)
    (stepped : s.step? arcs = some s') :
    ∃ done', Sound arcs source done' Nothing s' ∧
      s'.queue.toList.length + spent arcs done + 1 ≤ s.queue.toList.length + spent arcs done' := by
  unfold step? at stepped
  cases popped : s.queue.pop? with
  | none =>
    rw [popped] at stepped
    cases stepped
  | some taken =>
    obtain ⟨e, rest⟩ := taken
    obtain ⟨_, parts, _⟩ := h.ordered.pop popped
    have one : s.queue.toList.length = rest.toList.length + 1 := parts.length_eq
    obtain ⟨l, found, _⟩ := h.queued e (parts.mem_iff.mpr List.mem_cons_self)
    simp only [popped, found] at stepped
    split at stepped
    · rename_i settled
      cases stepped
      refine ⟨done, h.skip popped found settled, ?_⟩
      show rest.toList.length + _ + 1 ≤ _
      omega
    · rename_i unsettled
      replace unsettled : l.settled = false := by simpa using unsettled
      obtain ⟨nodes, walk⟩ := h.walk (Array.mem_of_getElem? found)
      obtain ⟨out, leaving⟩ := confined.inside nodes _ _ walk
      simp only [leaving, h.cost_eq popped found unsettled] at stepped
      cases stepped
      have sound := h.settle popped found unsettled leaving
      have there : (s.labels.setIfInBounds e.node l.settle)[e.node]? = some l.settle := by
        rw [Array.getElem?_setIfInBounds, if_pos rfl, if_pos (Array.getElem?_eq_some_iff.mp found).1]
      have latest : ∀ l' ∈ l.settle :: done, l'.cost ≤ l.settle.cost := by
        refine List.forall_mem_cons.mpr ⟨Nat.le_refl _, ?_⟩
        intro l' member
        have late := h.late l' member e (parts.mem_iff.mpr List.mem_cons_self)
        rwa [h.cost_eq popped found unsettled] at late
      obtain ⟨followed, few⟩ := sound.follow there List.mem_cons_self latest
        fun a listed => ⟨out, leaving, listed⟩
      refine ⟨l.settle :: done, followed, ?_⟩
      have more : spent arcs (l.settle :: done) = out.length + spent arcs done := by
        simp [spent, degree, Label.settle, leaving]
      have bound := Nat.add_le_add_right few (spent arcs done + 1)
      calc
        _ ≤ rest.toList.length + out.length + (spent arcs done + 1) := bound
        _ = s.queue.toList.length + spent arcs (l.settle :: done) := by omega

lemma queue_of_step?_eq_none (h : s.step? arcs = none) : s.queue.toList = [] := by
  unfold step? at h
  split at h
  · exact CostQueue.pop?_eq_none ‹_›
  · simp only at h
    split at h
    · cases h
    · split at h
      · cases h
      · split at h <;> cases h

lemma Sound.spent_le (h : Sound arcs source done owed s) (confined : Confined arcs source arcCount) :
    spent arcs done ≤ arcCount := by
  have few := confined.few _ h.nodup
  rwa [List.map_map] at few

/-- Enough steps leave nothing in the queue. -/
lemma Sound.runFor (h : Sound arcs source done Nothing s) (confined : Confined arcs source arcCount)
    {steps : Nat} (enough : s.queue.toList.length + arcCount ≤ steps + spent arcs done) :
    ∃ done', Sound arcs source done' Nothing (runFor arcs steps s) ∧
      (Search.runFor arcs steps s).queue.toList = [] := by
  induction steps generalizing s done with
  | zero =>
    have few := h.spent_le confined
    unfold Search.runFor
    exact ⟨done, h, List.length_eq_zero_iff.mp (by omega)⟩
  | succ steps ih =>
    unfold Search.runFor
    cases stepped : s.step? arcs with
    | none => exact ⟨done, h, queue_of_step?_eq_none stepped⟩
    | some s' =>
      obtain ⟨done', sound, fewer⟩ := h.step confined stepped
      exact ih sound (by omega)

/-- Where nothing waits any more, every label is settled. -/
lemma Sound.settled_of_idle (h : Sound arcs source done owed s) (idle : s.queue.toList = [])
    (member : l ∈ s.labels) : l ∈ done := by
  refine (h.mem_done l).mpr ⟨member, ?_⟩
  obtain ⟨i, found⟩ := Array.mem_iff_getElem?.mp member
  by_contra unsettled
  have waits := h.waiting i l found (by simpa using unsettled)
  rw [idle] at waits
  cases waits

/-- Where nothing waits any more, no node is farther than any walk to it. -/
lemma Sound.reaches (h : Sound arcs source done Nothing s) (idle : s.queue.toList = [])
    {u v cost : Nat} {nodes : List Nat} (walk : Walk arcs u nodes v cost) (member : l ∈ s.labels)
    (own : l.node = u) : ∃ l' ∈ s.labels, l'.node = v ∧ l'.cost ≤ l.cost + cost := by
  induction walk generalizing l with
  | here u => exact ⟨l, member, own, Nat.le_refl _⟩
  | @step u v w cost rest nodes joined _ ih =>
    subst own
    have settled := h.settled_of_idle idle member
    obtain ⟨l', member', own', less⟩ := (h.followed l settled v cost joined).resolve_left id
    obtain ⟨l'', member'', own'', less'⟩ := ih member' own'
    exact ⟨l'', member'', own'', by omega⟩

/-- What is found of a node is the label it has, if that is settled, and the way back from it. -/
lemma Sound.path?_of_settled (h : Sound arcs source done owed s) (member : l ∈ done) :
    ∃ nodes, s.path? l.node = some (nodes, l.cost) ∧ Walk arcs source nodes l.node l.cost := by
  obtain ⟨there, settled⟩ := (h.mem_done l).mp member
  obtain ⟨i, found⟩ := Array.mem_iff_getElem?.mp there
  have few : done.length ≤ s.labels.size := by
    have subset : done ⊆ s.labels.toList := fun l' member' => Array.mem_toList_iff.mpr ((h.mem_done l').mp member').1
    exact (List.subperm_of_subset (List.Nodup.of_map _ h.nodup) subset).length_le
  obtain ⟨before, walked, walk⟩ := h.history.trail member found few []
  refine ⟨before, ?_, walk⟩
  unfold path?
  rw [(h.numbered l.node i).mpr ⟨l, found, rfl⟩]
  simp only [Option.bind_some, found, Option.map_some, settled, if_true]
  rw [walked, List.append_nil]

lemma Sound.path?_inv (h : Sound arcs source done owed s) {v cost : Nat} {nodes : List Nat}
    (found : s.path? v = some (nodes, cost)) : ∃ l ∈ done, l.node = v := by
  unfold path? at found
  split at found
  · cases found
  · rename_i i l known
    obtain ⟨i', numbered, labelled⟩ := Option.bind_eq_some_iff.mp known
    obtain ⟨l', there, same⟩ := Option.map_eq_some_iff.mp labelled
    cases same
    split at found
    · rename_i settled
      obtain ⟨l', there', own⟩ := (h.numbered v i).mp numbered
      obtain rfl := Option.some.inj (there.symm.trans there')
      exact ⟨l, (h.mem_done l).mpr ⟨Array.mem_of_getElem? there, settled⟩, own⟩
    · cases found

/-- A search from a node finds a walk to every node to which there is one, no walk to it costs less, and it never
leaves the graph. -/
lemma run_shortest (confined : Confined arcs source arcCount) :
    (∀ v nodes cost, (run arcs arcCount source).path? v = some (nodes, cost) →
      Walk arcs source nodes v cost) ∧
    (∀ v nodes cost, Walk arcs source nodes v cost →
      ∃ nodes' cost', (run arcs arcCount source).path? v = some (nodes', cost') ∧ cost' ≤ cost) ∧
    (run arcs arcCount source).astray = false := by
  have enough : (start source).queue.toList.length + arcCount ≤ arcCount + 1 + spent arcs [] := by
    have one : (start source).queue.toList.length = 1 := (CostQueue.toList_push {} 0 0).length_eq
    omega
  obtain ⟨done, sound, idle⟩ := (sound_start arcs source).runFor confined enough
  refine ⟨?_, ?_, sound.inside⟩
  · intro v nodes cost found
    obtain ⟨l, member, rfl⟩ := sound.path?_inv found
    obtain ⟨nodes', found', walk⟩ := sound.path?_of_settled member
    cases found.symm.trans found'
    exact walk
  · intro v nodes cost walk
    obtain ⟨first, member, own, free⟩ := sound.begun
    obtain ⟨l, member', rfl, less⟩ := sound.reaches idle walk member own
    obtain ⟨nodes', found, _⟩ := sound.path?_of_settled (sound.settled_of_idle idle member')
    rw [free, Nat.zero_add] at less
    exact ⟨nodes', l.cost, found, less⟩

end RideDispatch.Search

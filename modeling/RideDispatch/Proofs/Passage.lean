import RideDispatch.Proofs.Links
import RideDispatch.Proofs.Search

/-!
# Passages through a network

A `Passage` is a list of links of a network that lead, one after the other, from one node to another. In a
regular network these are the walks that a search knows, and they take the time that it counts.
-/

namespace RideDispatch.Network

variable {n : Network} {l : Link} {ls : List Link} {u v : Nat}

/-- The link belongs to the network. -/
def Has (n : Network) (l : Link) : Prop := n.links[l.id]? = some l

/-- Links of the network that lead, one after the other, from one node to another. -/
inductive Passage (n : Network) : Nat → List Link → Nat → Prop
  | stay (u : Nat) : Passage n u [] u
  | drive {l : Link} {ls : List Link} {v : Nat} (u : Nat) :
    n.Has l →
    l.tail = u →
    Passage n l.head ls v →
    Passage n u (l :: ls) v

/-- The time it takes to drive along some links, in milliseconds. -/
def drivingTime (ls : List Link) : Nat := (ls.map fun l => l.travelTime.toNat).sum

/-! ## The arcs of a network -/

lemma Regular.has (h : n.Regular) {id : LinkId} (found : n.links[id]? = some l) : n.Has l := by
  rw [← h.keyed id l found] at found
  exact found

lemma Regular.mem_linksFrom (h : n.Regular) : l ∈ n.linksFrom u ↔ n.Has l ∧ l.tail = u := by
  unfold linksFrom
  cases outgoing : n.outgoing[u]? with
  | none =>
    have beyond : n.nodeCount ≤ u := h.size_outgoing ▸ Array.getElem?_eq_none_iff.mp outgoing
    constructor
    · exact nofun
    · rintro ⟨has, rfl⟩
      exact absurd (h.joins l.id l has).1 (Nat.not_lt.mpr beyond)
  | some ids =>
    simp only [List.mem_filterMap]
    constructor
    · rintro ⟨id, member, found⟩
      obtain ⟨l', found', own⟩ := (h.listed u ids outgoing id).mp member
      obtain rfl := Option.some.inj (found.symm.trans found')
      exact ⟨h.has found, own⟩
    · rintro ⟨has, own⟩
      exact ⟨l.id, (h.listed u ids outgoing l.id).mpr ⟨l, has, own⟩, has⟩

/-- A node lists each link that leaves it once. -/
lemma Regular.nodup_linksFrom (h : n.Regular) : ((n.linksFrom u).map Link.id).Nodup := by
  unfold linksFrom
  split
  · exact .nil
  · rename_i ids outgoing
    have named : ∀ id ∈ ids, n.links[id]?.map Link.id = some id := by
      intro id member
      obtain ⟨l, found, _⟩ := (h.listed u ids outgoing id).mp member
      rw [found, Option.map_some, h.keyed id l found]
    rw [List.map_filterMap, List.filterMap_congr named, List.filterMap_some]
    exact h.nodup u ids outgoing

lemma Regular.joins_iff (h : n.Regular) {cost : Nat} :
    Search.Joins n.arcs u v cost ↔
      ∃ l, n.Has l ∧ l.tail = u ∧ l.head = v ∧ l.travelTime.toNat = cost := by
  unfold Search.Joins arcs
  constructor
  · rintro ⟨out, leaving, listed⟩
    split at leaving
    · cases leaving
      obtain ⟨l, member, arc⟩ := List.mem_map.mp listed
      cases arc
      obtain ⟨has, own⟩ := h.mem_linksFrom.mp member
      exact ⟨l, has, own, rfl, rfl⟩
    · cases leaving
  · rintro ⟨l, has, rfl, rfl, rfl⟩
    have below := (h.joins l.id l has).1
    exact ⟨_, if_pos below, List.mem_map.mpr ⟨l, h.mem_linksFrom.mpr ⟨has, rfl⟩, rfl⟩⟩

lemma Regular.degree_arcs (h : n.Regular) (u : Nat) :
    Search.degree n.arcs u = ((n.linksFrom u).map Link.id).length := by
  unfold Search.degree arcs
  split
  · simp
  · rename_i beyond
    have missing : n.outgoing[u]? = none := Array.getElem?_eq_none (h.size_outgoing ▸ Nat.le_of_not_lt beyond)
    simp [linksFrom, missing]

/-- The links that leave different nodes are different, so there are no more arcs than links. -/
lemma Regular.degrees_le (h : n.Regular) {nodes : List Nat} (nodup : nodes.Nodup) :
    (nodes.map (Search.degree n.arcs)).sum ≤ n.links.size := by
  let ids (u : Nat) : List LinkId := (n.linksFrom u).map Link.id
  have apart : (nodes.flatMap ids).Nodup := by
    refine List.nodup_flatMap.mpr ⟨fun u _ => h.nodup_linksFrom, nodup.imp ?_⟩
    rintro u v different id listed listed'
    obtain ⟨l, member, rfl⟩ := List.mem_map.mp listed
    obtain ⟨l', member', same⟩ := List.mem_map.mp listed'
    obtain ⟨has, rfl⟩ := h.mem_linksFrom.mp member
    obtain ⟨has', rfl⟩ := h.mem_linksFrom.mp member'
    unfold Has at has'
    rw [same, has] at has'
    cases has'
    exact different rfl
  have known : nodes.flatMap ids ⊆ n.links.keys := by
    intro id listed
    obtain ⟨u, _, listed⟩ := List.mem_flatMap.mp listed
    obtain ⟨l, member, rfl⟩ := List.mem_map.mp listed
    rw [Std.ExtTreeMap.mem_keys, ← Std.ExtTreeMap.isSome_getElem?_iff_mem, (h.mem_linksFrom.mp member).1]
    rfl
  calc
    (nodes.map (Search.degree n.arcs)).sum = (nodes.flatMap ids).length := by
      rw [List.length_flatMap]
      congr 1
      exact List.map_congr_left fun u _ => h.degree_arcs u
    _ ≤ n.links.keys.length := (List.subperm_of_subset apart known).length_le
    _ = n.links.size := Std.ExtTreeMap.length_keys

lemma Regular.walk_inside (h : n.Regular) {nodes : List Nat} {cost : Nat}
    (walk : Search.Walk n.arcs u nodes v cost) (below : u < n.nodeCount) : v < n.nodeCount := by
  induction walk with
  | here u => exact below
  | step joined _ ih =>
    obtain ⟨l, has, _, rfl, _⟩ := h.joins_iff.mp joined
    exact ih (h.joins l.id l has).2.1

/-- Searches from a node of a regular network stay in it. -/
lemma Regular.confined (h : n.Regular) (below : u < n.nodeCount) :
    Search.Confined n.arcs u n.links.size where
  inside _ _ _ walk := ⟨_, if_pos (h.walk_inside walk below)⟩
  few _ nodup := h.degrees_le nodup

/-! ## The links along a walk -/

lemma mem_of_quickest? (h : quickest? ls = some l) : l ∈ ls := by
  have one_of : ∀ (rest : List Link) (best : Link),
      rest.foldl (fun best l => if quicker l best then l else best) best ∈ best :: rest := by
    intro rest
    induction rest with
    | nil => exact fun best => List.mem_singleton.mpr rfl
    | cons l rest ih =>
      intro best
      rw [List.foldl_cons]
      split
      · exact List.mem_cons_of_mem _ (ih l)
      · rcases List.mem_cons.mp (ih best) with same | later
        · exact List.mem_cons.mpr (.inl same)
        · exact List.mem_cons_of_mem _ (List.mem_cons_of_mem _ later)
  cases ls with
  | nil => cases h
  | cons first rest =>
    cases h
    exact one_of rest first

/-- There is nothing to choose between the links from a node to another. -/
lemma Regular.linkTo? (h : n.Regular) (has : n.Has l) : n.linkTo? l.tail l.head = some l := by
  have leads : l ∈ (n.linksFrom l.tail).filter fun l' => l'.head = l.head :=
    List.mem_filter.mpr ⟨h.mem_linksFrom.mpr ⟨has, rfl⟩, decide_eq_true rfl⟩
  cases chosen : n.linkTo? l.tail l.head with
  | none =>
    unfold Network.linkTo? at chosen
    cases listed : (n.linksFrom l.tail).filter fun l' => l'.head = l.head with
    | nil =>
      rw [listed] at leads
      cases leads
    | cons first rest =>
      rw [listed] at chosen
      cases chosen
  | some l' =>
    obtain ⟨member, head⟩ := List.mem_filter.mp (mem_of_quickest? chosen)
    obtain ⟨has', tail⟩ := h.mem_linksFrom.mp member
    exact congrArg some (h.unique has' has tail (of_decide_eq_true head))

lemma drivingTime_cons (l : Link) (ls : List Link) :
    drivingTime (l :: ls) = l.travelTime.toNat + drivingTime ls := by
  unfold drivingTime
  rw [List.map_cons, List.sum_cons]

/-- Along the nodes of a walk there are links that take the time of the walk. -/
lemma Regular.passage_of_walk (h : n.Regular) {nodes : List Nat} {cost : Nat}
    (walk : Search.Walk n.arcs u nodes v cost) :
    ∃ ls, n.linksAlong? nodes = some (ls.map Link.id) ∧ n.Passage u ls v ∧ drivingTime ls = cost := by
  induction walk with
  | here u => exact ⟨[], rfl, .stay u, rfl⟩
  | @step u v w cost rest nodes joined walk ih =>
    obtain ⟨nodes, rfl⟩ : ∃ nodes', nodes = v :: nodes' := by
      cases walk with
      | here => exact ⟨_, rfl⟩
      | step => exact ⟨_, rfl⟩
    obtain ⟨l, has, rfl, rfl, rfl⟩ := h.joins_iff.mp joined
    obtain ⟨ls, along, passage, rfl⟩ := ih
    refine ⟨l :: ls, ?_, .drive l.tail has rfl passage, drivingTime_cons l ls⟩
    unfold linksAlong?
    rw [h.linkTo? has, along]
    rfl

/-- Every passage is a walk. -/
lemma Passage.walk (h : n.Regular) (passage : n.Passage u ls v) :
    ∃ nodes, Search.Walk n.arcs u nodes v (drivingTime ls) := by
  induction passage with
  | stay u => exact ⟨_, .here u⟩
  | @drive l ls v u has own _ ih =>
    obtain ⟨nodes, walk⟩ := ih
    rw [drivingTime_cons]
    exact ⟨_, .step (h.joins_iff.mpr ⟨l, has, own, rfl, rfl⟩) walk⟩

/-! ## The way from a link to another -/

/-- The way from a link to another one takes a quickest passage between them, where there is one. -/
lemma Regular.way?_of_ne (h : n.Regular) {a b : Link} (has : n.Has a) (has' : n.Has b) (ne : a.id ≠ b.id) :
    (∃ ls, n.way? a.id b.id =
        .ok (some ⟨Time.ofNat (drivingTime ls + b.travelTime.toNat), a.id :: (ls.map Link.id ++ [b.id])⟩) ∧
      n.Passage a.head ls b.tail ∧
      ∀ ls', n.Passage a.head ls' b.tail → drivingTime ls ≤ drivingTime ls') ∨
    n.way? a.id b.id = .ok none ∧ ∀ ls, ¬ n.Passage a.head ls b.tail := by
  obtain ⟨sound, complete, inside⟩ := Search.run_shortest (h.confined (h.joins a.id a has).2.1)
  unfold way?
  simp only [show n.links[a.id]? = some a from has, show n.links[b.id]? = some b from has', if_neg ne]
  unfold wayBy? searchFrom
  cases found : (Search.run n.arcs n.links.size a.head).path? b.tail with
  | none =>
    refine .inr ⟨?_, ?_⟩
    · simp [Search.misses, inside]
    · intro ls passage
      obtain ⟨nodes, walk⟩ := passage.walk h
      obtain ⟨_, _, found', _⟩ := complete _ _ _ walk
      rw [found] at found'
      cases found'
  | some path =>
    obtain ⟨nodes, cost⟩ := path
    obtain ⟨ls, along, passage, rfl⟩ := h.passage_of_walk (sound _ _ _ found)
    refine .inl ⟨ls, ?_, passage, ?_⟩
    · simp only [along, Option.map_some]
    · intro ls' passage'
      obtain ⟨nodes', walk⟩ := passage'.walk h
      obtain ⟨_, _, found', less⟩ := complete _ _ _ walk
      cases found.symm.trans found'
      exact less

end RideDispatch.Network

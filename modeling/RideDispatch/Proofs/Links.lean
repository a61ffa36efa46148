import Mathlib.Data.List.Nodup
import RideDispatch.Proofs.Ways

/-!
# The links of a network

The number of a link tells the nodes that it joins. So a network to which links have been added between nodes
of its lattice is `Regular`: it has at most one link from a node to another, and each node lists just those
that leave it (`Regular.insertLink`).
-/

namespace RideDispatch.Network

variable {n : Network} {l l' : Link} {id : LinkId} {tail head : Nat}

/-- Every link is kept under its own identity, whose number tells the nodes that it joins, and each node lists
just the links that leave it, each of them once. -/
structure Regular (n : Network) : Prop where
  size_outgoing : n.outgoing.size = n.nodeCount
  keyed : n.Keyed
  joins : ∀ (id : LinkId) (l : Link), n.links[id]? = some l → l.tail < n.nodeCount ∧ l.head < n.nodeCount ∧
    id.val.toNat = l.tail * n.nodeCount + l.head
  nodup : ∀ (u : Nat) (ids : List LinkId), n.outgoing[u]? = some ids → ids.Nodup
  listed : ∀ (u : Nat) (ids : List LinkId), n.outgoing[u]? = some ids →
    ∀ id, id ∈ ids ↔ ∃ l : Link, n.links[id]? = some l ∧ l.tail = u

/-- The number of a link tells its nodes. -/
lemma nodes_of_number {count tail head tail' head' : Nat} (below : head < count) (below' : head' < count)
    (same : tail * count + head = tail' * count + head') : tail = tail' ∧ head = head' := by
  have quotient := congrArg (· / count) same
  have remainder := congrArg (· % count) same
  simp only [Nat.mul_comm _ count, Nat.mul_add_div (Nat.zero_lt_of_lt below), Nat.div_eq_of_lt below,
    Nat.div_eq_of_lt below', Nat.add_zero] at quotient
  simp only [Nat.mul_comm _ count, Nat.mul_add_mod, Nat.mod_eq_of_lt below, Nat.mod_eq_of_lt below'] at remainder
  exact ⟨quotient, remainder⟩

lemma getElem?_links_insertLink : (n.insertLink tail head).links[id]? =
    if n.linkBetween tail head = id then some (n.newLink tail head) else n.links[id]? :=
  Table.getElem?_insert

lemma toNat_linkBetween (fits : tail * n.nodeCount + head < UInt64.size) :
    (n.linkBetween tail head).val.toNat = tail * n.nodeCount + head :=
  UInt64.toNat_ofNat_of_lt fits

/-- There is at most one link from a node to another. -/
lemma Regular.unique (h : n.Regular) {id id' : LinkId} (found : n.links[id]? = some l)
    (found' : n.links[id']? = some l') (tail : l.tail = l'.tail) (head : l.head = l'.head) : l = l' := by
  have number := (h.joins id l found).2.2
  have number' := (h.joins id' l' found').2.2
  rw [tail, head, ← number'] at number
  obtain rfl : id = id' := congrArg Id.mk (UInt64.toNat_inj.mp number)
  exact Option.some.inj (found.symm.trans found')

lemma regular_nodesOnly (columns rows : Nat) (params : NetworkParams) :
    (nodesOnly columns rows params).Regular := by
  have none_ (u : Nat) (ids : List LinkId) (found : (nodesOnly columns rows params).outgoing[u]? = some ids) :
      ids = [] := by
    simp only [nodesOnly, Array.getElem?_replicate] at found
    split at found
    · exact (Option.some.inj found).symm
    · cases found
  have empty (id : LinkId) : (nodesOnly columns rows params).links[id]? = none := by
    simp [nodesOnly]
  constructor
  case size_outgoing => simp [nodesOnly, nodeCount]
  case keyed =>
    intro id l found
    rw [empty] at found
    cases found
  case joins =>
    intro id l found
    rw [empty] at found
    cases found
  case nodup =>
    intro u ids found
    rw [none_ u ids found]
    exact .nil
  case listed =>
    intro u ids found id
    rw [none_ u ids found, empty]
    simp

/-- A node lists what it listed before, unless the new link leaves it and was not there before. -/
lemma outgoing_insertLink {u : Nat} {ids : List LinkId}
    (found : (n.insertLink tail head).outgoing[u]? = some ids) :
    n.outgoing[u]? = some ids ∧ (tail = u → ∃ l, n.links[n.linkBetween tail head]? = some l) ∨
      tail = u ∧ ∃ ids', n.outgoing[u]? = some ids' ∧ n.links[n.linkBetween tail head]? = none ∧
        ids = ids' ++ [n.linkBetween tail head] := by
  replace found : (if n.links.contains (n.linkBetween tail head) then n.outgoing
    else n.outgoing.modify tail (· ++ [n.linkBetween tail head]))[u]? = some ids := found
  rw [Table.contains_eq_isSome] at found
  split at found
  · rename_i known
    exact .inl ⟨found, fun _ => Option.isSome_iff_exists.mp known⟩
  · rename_i new
    rw [Array.getElem?_modify] at found
    split at found
    · rename_i own
      obtain ⟨ids', before, rfl⟩ := Option.map_eq_some_iff.mp found
      exact .inr ⟨own, ids', before, by simpa using new, rfl⟩
    · rename_i other
      exact .inl ⟨found, fun own => absurd own other⟩

/-- A link that has the number of another one starts where that one starts. -/
lemma Regular.tail_of_linkBetween (h : n.Regular) (below : head < n.nodeCount)
    (fits : tail * n.nodeCount + head < UInt64.size) (found : n.links[n.linkBetween tail head]? = some l) :
    l.tail = tail := by
  obtain ⟨_, below', number⟩ := h.joins _ l found
  exact (nodes_of_number below' below (number.symm.trans (toNat_linkBetween fits))).1

/-- The links that leave a node are those that left it before, and the new one if it leaves it. -/
lemma Regular.leaves_insertLink (h : n.Regular) (below : head < n.nodeCount)
    (fits : tail * n.nodeCount + head < UInt64.size) (id : LinkId) (u : Nat) :
    (∃ l : Link, (n.insertLink tail head).links[id]? = some l ∧ l.tail = u) ↔
      (∃ l : Link, n.links[id]? = some l ∧ l.tail = u) ∨ n.linkBetween tail head = id ∧ tail = u := by
  rw [getElem?_links_insertLink]
  by_cases own : n.linkBetween tail head = id
  · subst own
    rw [if_pos rfl]
    constructor
    · rintro ⟨l, new, rfl⟩
      cases new
      exact .inr ⟨rfl, rfl⟩
    · rintro (⟨l, found, rfl⟩ | ⟨_, rfl⟩)
      · exact ⟨_, rfl, (h.tail_of_linkBetween below fits found).symm⟩
      · exact ⟨_, rfl, rfl⟩
  · simp [own]

/-- Adding a link between nodes of the lattice keeps the network regular. -/
lemma Regular.insertLink (h : n.Regular) (below : tail < n.nodeCount) (below' : head < n.nodeCount)
    (fits : tail * n.nodeCount + head < UInt64.size) : (n.insertLink tail head).Regular := by
  constructor
  case size_outgoing =>
    show (if _ then _ else _ : Array (List LinkId)).size = n.nodeCount
    split
    · exact h.size_outgoing
    · rw [Array.size_modify, h.size_outgoing]
  case keyed => exact h.keyed.insertLink tail head
  case joins =>
    intro id l found
    rw [getElem?_links_insertLink] at found
    split at found
    · rename_i own
      cases found
      exact ⟨below, below', own ▸ toNat_linkBetween fits⟩
    · exact h.joins id l found
  case nodup =>
    intro u ids found
    rcases outgoing_insertLink found with ⟨before, _⟩ | ⟨rfl, ids, before, new, rfl⟩
    · exact h.nodup u ids before
    · rw [← List.concat_eq_append]
      refine (h.nodup _ _ before).concat ?_
      intro listed
      obtain ⟨l, there, _⟩ := (h.listed _ _ before _).mp listed
      rw [new] at there
      cases there
  case listed =>
    intro u ids found id
    rw [h.leaves_insertLink below' fits]
    rcases outgoing_insertLink found with ⟨before, known⟩ | ⟨rfl, ids, before, new, rfl⟩
    · rw [h.listed u ids before]
      constructor
      · exact .inl
      · rintro (old | ⟨rfl, rfl⟩)
        · exact old
        · obtain ⟨l, there⟩ := known rfl
          exact ⟨l, there, h.tail_of_linkBetween below' fits there⟩
    · rw [List.mem_append, List.mem_singleton, h.listed _ _ before]
      simp [eq_comm]

end RideDispatch.Network

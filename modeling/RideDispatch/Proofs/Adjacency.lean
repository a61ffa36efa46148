import Mathlib.Data.List.Dedup
import Mathlib.Data.Nat.Dist
import RideDispatch.Proofs.Trips
import RideDispatch.Time.Arithmetic

/-!
# Links and the nodes that list them

The number of a link is computed on bare words: the number of its tail times the number of nodes, plus the number of
its head. On a lattice of up to `2 ^ 32` nodes it fits (`number_lt`), and where it fits it tells the two nodes. So
whatever links are added, the same ones again and again or not, a network keeps one link for each pair of nodes that
was ever given, and each node lists just the links that leave it: one link keeps this (`Laid.insertLink`), and so
does any number of calls, up to one at which checked arithmetic stops (`Laid.extend?`, `links_listed`). In the full
lattice these are the links between positions that are beside one another (`Laid.mem_linkList_grid`).
-/

namespace RideDispatch

/-- One step along the columns or along the rows leads from one position to the other. -/
def Position.Beside (p q : Position) : Prop := Nat.dist p.column q.column + Nat.dist p.row q.row = 1

namespace Network

variable {n bare : Network} {calls : List RoadCall} {call : RoadCall} {l : Link} {id : LinkId}
variable {pairs pairs' : List (Nat × Nat)} {tail head tail' head' : Nat} {p q : Position}

/-! ## The numbers of links -/

/-- The position is on the lattice. -/
def Spans (n : Network) (p : Position) : Prop := p.column < n.columns ∧ p.row < n.rows

/-- The identity of the link between two nodes, where checked arithmetic does not stop at its number. -/
def linkBetween? (n : Network) (tail head : Nat) : Option LinkId :=
  (Arithmetic.checked.word? (tail * n.nodeCount + head)).map Id.mk

/-- The links between different positions have different identities, and they have one unless the lattice has more
pairs of nodes than there are words. -/
structure Distinguishes (n : Network) : Prop where
  apart : ∀ p q p' q', n.Spans p → n.Spans q → n.Spans p' → n.Spans q' → ∀ id,
    n.linkBetween? (n.nodeAt p) (n.nodeAt q) = some id →
      n.linkBetween? (n.nodeAt p') (n.nodeAt q') = some id → p = p' ∧ q = q'
  total : ∀ p q, n.Spans p → n.Spans q →
    n.linkBetween? (n.nodeAt p) (n.nodeAt q) = some (n.linkId p q) ∨
      2 ^ 32 < n.nodeCount ∧ n.linkBetween? (n.nodeAt p) (n.nodeAt q) = none

/-- Where a table of some columns, each of the same height, has a place. -/
lemma place_lt {columns height column row : Nat} (inside : column < columns) (inside' : row < height) :
    column * height + row < columns * height := by
  calc
    column * height + row < column * height + height := Nat.add_lt_add_left inside' _
    _ = (column + 1) * height := (Nat.succ_mul _ _).symm
    _ ≤ columns * height := Nat.mul_le_mul_right _ inside

lemma number_lt (few : n.nodeCount ≤ 2 ^ 32) (below : tail < n.nodeCount) (below' : head < n.nodeCount) :
    tail * n.nodeCount + head < UInt64.size := by
  calc
    tail * n.nodeCount + head < n.nodeCount * n.nodeCount := place_lt below below'
    _ ≤ 2 ^ 32 * 2 ^ 32 := Nat.mul_le_mul few few
    _ = UInt64.size := rfl

lemma linkBetween?_of_lt (fits : tail * n.nodeCount + head < UInt64.size) :
    n.linkBetween? tail head = some (n.linkBetween tail head) := by
  unfold linkBetween?
  rw [Arithmetic.word?_of_lt fits]
  rfl

lemma linkBetween?_of_le (misfit : UInt64.size ≤ tail * n.nodeCount + head) : n.linkBetween? tail head = none := by
  unfold linkBetween?
  rw [Arithmetic.checked_word?_of_le misfit]
  rfl

/-- Either the number of a link fits, or arithmetic stops at it, for which the lattice must have too many nodes. -/
lemma numbered_or (below : tail < n.nodeCount) (below' : head < n.nodeCount) :
    tail * n.nodeCount + head < UInt64.size ∨ 2 ^ 32 < n.nodeCount ∧ n.linkBetween? tail head = none := by
  rcases Nat.lt_or_ge (tail * n.nodeCount + head) UInt64.size with fits | misfit
  · exact .inl fits
  · refine .inr ⟨Nat.lt_of_not_le fun few => ?_, linkBetween?_of_le misfit⟩
    exact absurd (number_lt few below below') (Nat.not_lt.mpr misfit)

lemma toNat_linkBetween? (own : n.linkBetween? tail head = some id) :
    id.val.toNat = tail * n.nodeCount + head := by
  rcases Nat.lt_or_ge (tail * n.nodeCount + head) UInt64.size with fits | misfit
  · rw [linkBetween?_of_lt fits] at own
    cases own
    exact toNat_linkBetween fits
  · rw [linkBetween?_of_le misfit] at own
    cases own

lemma nodeAt_lt (spans : n.Spans p) : n.nodeAt p < n.nodeCount := place_lt spans.1 spans.2

lemma nodeAt_inj (spans : n.Spans p) (spans' : n.Spans q) (same : n.nodeAt p = n.nodeAt q) : p = q := by
  obtain ⟨column, row⟩ := nodes_of_number spans.2 spans'.2 same
  cases p
  cases q
  exact congrArg₂ Position.mk column row

lemma distinguishes (n : Network) : n.Distinguishes where
  apart p q p' q' spans₁ spans₂ spans₃ spans₄ id own own' := by
    have same := (toNat_linkBetween? own).symm.trans (toNat_linkBetween? own')
    obtain ⟨tails, heads⟩ := nodes_of_number (nodeAt_lt spans₂) (nodeAt_lt spans₄) same
    exact ⟨nodeAt_inj spans₁ spans₃ tails, nodeAt_inj spans₂ spans₄ heads⟩
  total p q spans spans' := (numbered_or (nodeAt_lt spans) (nodeAt_lt spans')).imp_left linkBetween?_of_lt

/-! ## Adding links between given nodes -/

/-- The nodes are on the lattice, and the number of the link between them fits in a word. -/
def Numbers (n : Network) (ends : Nat × Nat) : Prop :=
  ends.1 < n.nodeCount ∧ ends.2 < n.nodeCount ∧ ends.1 * n.nodeCount + ends.2 < UInt64.size

/-- A regular network on the lattice of another one, with just the links between the given pairs of nodes. -/
structure Laid (bare n : Network) (pairs : List (Nat × Nat)) : Prop where
  regular : n.Regular
  columns : n.columns = bare.columns
  rows : n.rows = bare.rows
  params : n.params = bare.params
  has_iff : ∀ l, n.Has l ↔ ∃ ends ∈ pairs, bare.newLink ends.1 ends.2 = l

lemma laid_nodesOnly (columns rows : Nat) (params : NetworkParams) :
    Laid (nodesOnly columns rows params) (nodesOnly columns rows params) [] where
  regular := regular_nodesOnly columns rows params
  columns := rfl
  rows := rfl
  params := rfl
  has_iff l := by simp [Has, nodesOnly]

lemma Laid.nodeCount (h : Laid bare n pairs) : n.nodeCount = bare.nodeCount :=
  congrArg₂ (· * ·) h.columns h.rows

lemma Laid.newLink (h : Laid bare n pairs) (tail head : Nat) : n.newLink tail head = bare.newLink tail head := by
  unfold Network.newLink linkBetween
  rw [h.nodeCount, h.params]

lemma Laid.numbers_iff (h : Laid bare n pairs) {ends : Nat × Nat} : n.Numbers ends ↔ bare.Numbers ends := by
  unfold Numbers
  rw [h.nodeCount]

/-- A link that has the number of a pair of nodes is the one between them. -/
lemma Laid.eq_newLink (h : Laid bare n pairs) (numbers : n.Numbers (tail, head)) (has : n.Has l)
    (own : n.linkBetween tail head = l.id) : bare.newLink tail head = l := by
  obtain ⟨_, below, fits⟩ := numbers
  obtain ⟨_, below', number⟩ := h.regular.joins l.id l has
  obtain ⟨ends, _, rfl⟩ := (h.has_iff l).mp has
  rw [← own, toNat_linkBetween fits] at number
  obtain ⟨rfl, rfl⟩ := nodes_of_number below below' number
  rfl

/-- One more link, whether or not it is there already. -/
lemma Laid.insertLink (h : Laid bare n pairs) {ends : Nat × Nat} (numbers : bare.Numbers ends) :
    Laid bare (n.insertLink ends.1 ends.2) (pairs ++ [ends]) := by
  replace numbers := h.numbers_iff.mpr numbers
  refine ⟨h.regular.insertLink numbers.1 numbers.2.1 numbers.2.2, h.columns, h.rows, h.params, fun l => ?_⟩
  have given : (∃ ends' ∈ pairs ++ [ends], bare.newLink ends'.1 ends'.2 = l) ↔
      n.Has l ∨ bare.newLink ends.1 ends.2 = l := by
    simp only [List.mem_append, List.mem_singleton, or_and_right, exists_or, exists_eq_left, h.has_iff]
  rw [given]
  unfold Has
  rw [getElem?_links_insertLink, h.newLink]
  constructor
  · intro found
    split at found
    · exact .inr (Option.some.inj found)
    · exact .inl found
  · rintro (has | rfl)
    · split
      · rename_i own
        exact congrArg some (h.eq_newLink numbers has own)
      · exact has
    · exact if_pos (congrArg Link.id (h.newLink ends.1 ends.2))

lemma Laid.insertLinks (h : Laid bare n pairs) (numbers : ∀ ends ∈ pairs', bare.Numbers ends) :
    Laid bare (n.insertLinks pairs') (pairs ++ pairs') := by
  induction pairs' generalizing n pairs with
  | nil =>
    rw [List.append_nil]
    exact h
  | cons ends pairs' ih =>
    obtain ⟨first, rest⟩ := List.forall_mem_cons.mp numbers
    rw [← List.singleton_append, ← List.append_assoc]
    exact ih (h.insertLink first) rest

/-! ## The links of a network and the lists of its nodes -/

/-- The links of a network are those between the given pairs of nodes, one for each pair, kept under their own
identities, and each node lists the identities of those that leave it, each of them once. -/
structure Carries (bare n : Network) (pairs : List (Nat × Nat)) : Prop where
  links : n.linkList.Perm (pairs.dedup.map fun ends => bare.newLink ends.1 ends.2)
  keyed : n.Keyed
  size_outgoing : n.outgoing.size = bare.nodeCount
  outgoing : ∀ u ids, n.outgoing[u]? = some ids →
    ids.Nodup ∧ ∀ id, id ∈ ids ↔ ∃ l ∈ n.linkList, l.id = id ∧ l.tail = u

lemma Keyed.map_id_linkList (h : n.Keyed) : n.linkList.map Link.id = n.linkIds := by
  unfold linkList linkIds
  rw [Table.values_eq_map_toList, List.map_map, ← Std.ExtTreeMap.map_fst_toList_eq_keys]
  refine List.map_congr_left fun entry member => ?_
  exact h entry.1 entry.2 (Std.ExtTreeMap.mem_toList_iff_getElem?_eq_some.mp member)

lemma Keyed.nodup_linkList (h : n.Keyed) : n.linkList.Nodup := by
  refine List.Nodup.of_map Link.id ?_
  rw [h.map_id_linkList]
  exact Std.ExtTreeMap.nodup_keys

lemma Regular.mem_linkList (h : n.Regular) : l ∈ n.linkList ↔ n.Has l := by
  unfold linkList
  rw [Table.mem_values]
  constructor
  · rintro ⟨id, found⟩
    exact h.has found
  · exact fun has => ⟨l.id, has⟩

lemma newLink_injective : Function.Injective fun ends : Nat × Nat => n.newLink ends.1 ends.2 := by
  intro ends ends' same
  exact Prod.ext (congrArg Link.tail same) (congrArg Link.head same)

lemma Laid.carries (h : Laid bare n pairs) : Carries bare n pairs where
  links := by
    apply (List.perm_ext_iff_of_nodup h.regular.keyed.nodup_linkList
      (pairs.nodup_dedup.map newLink_injective)).mpr
    intro l
    simp only [h.regular.mem_linkList, h.has_iff, List.mem_map, List.mem_dedup]
  keyed := h.regular.keyed
  size_outgoing := h.regular.size_outgoing.trans h.nodeCount
  outgoing u ids listed := by
    refine ⟨h.regular.nodup u ids listed, fun id => (h.regular.listed u ids listed id).trans ?_⟩
    constructor
    · rintro ⟨l, found, own⟩
      exact ⟨l, h.regular.mem_linkList.mpr (h.regular.has found), h.regular.keyed id l found, own⟩
    · rintro ⟨l, member, rfl, own⟩
      exact ⟨l, h.regular.mem_linkList.mp member, own⟩

/-! ## Calls that add links -/

/-- Checked arithmetic does not stop at the number of a link that the call adds. -/
def admits (n : Network) (call : RoadCall) : Bool :=
  (n.ends call).all fun ends => (n.linkBetween? ends.1 ends.2).isSome

/-- The network that some calls lead to, where checked arithmetic does not stop. -/
def extend? (n : Network) : List RoadCall → Option (Except OffLattice Network)
  | [] => some (.ok n)
  | call :: calls =>
    if n.admits call then
      match n.reply call with
      | .ok (_, n) => n.extend? calls
      | .error fault => some (.error fault)
    else none

end Network

/-- The links that are to be added join nodes of the lattice. -/
def RoadCall.OnLattice (n : Network) (call : RoadCall) : Prop :=
  ∀ ends ∈ n.ends call, ends.1 < n.nodeCount ∧ ends.2 < n.nodeCount

namespace Network

variable {n bare : Network} {calls : List RoadCall} {call : RoadCall}
variable {pairs : List (Nat × Nat)}

lemma inRange_of_numbers (numbers : ∀ ends ∈ n.ends call, n.Numbers ends) : call.InRange n := by
  cases call with
  | oneWay tail head => exact numbers _ List.mem_cons_self
  | double a b => exact ⟨numbers _ List.mem_cons_self, numbers _ (List.mem_cons_of_mem _ List.mem_cons_self)⟩
  | route origin target departure => trivial

lemma insertLinks_append (n : Network) (pairs pairs' : List (Nat × Nat)) :
    n.insertLinks (pairs ++ pairs') = (n.insertLinks pairs).insertLinks pairs' := List.foldl_append

lemma Laid.ends (h : Laid bare n pairs) (call : RoadCall) : n.ends call = bare.ends call := by
  have nodeAt (p : Position) : n.nodeAt p = bare.nodeAt p := by
    unfold Network.nodeAt
    rw [h.rows]
  cases call with
  | oneWay tail head => simp only [Network.ends, nodeAt]
  | double a b => simp only [Network.ends, nodeAt]
  | route origin target departure => rfl

lemma Laid.admits (h : Laid bare n pairs) (call : RoadCall) : n.admits call = bare.admits call := by
  unfold Network.admits linkBetween?
  rw [h.ends, h.nodeCount]

/-- Either all links that a call adds have numbers that fit, or the lattice has too many nodes. -/
lemma admits_or (onLattice : call.OnLattice n) :
    (n.admits call = true ∧ ∀ ends ∈ n.ends call, n.Numbers ends) ∨
      2 ^ 32 < n.nodeCount ∧ n.admits call = false := by
  cases goes : n.admits call with
  | true =>
    refine .inl ⟨rfl, fun ends member => ?_⟩
    have numbered := List.all_eq_true.mp goes ends member
    obtain ⟨below, below'⟩ := onLattice ends member
    rcases numbered_or below below' with fits | ⟨_, stops⟩
    · exact ⟨below, below', fits⟩
    · rw [stops] at numbered
      cases numbered
  | false =>
    obtain ⟨ends, member, stops⟩ := List.all_eq_false.mp goes
    obtain ⟨below, below'⟩ := onLattice ends member
    rcases numbered_or below below' with fits | ⟨many, _⟩
    · rw [linkBetween?_of_lt fits] at stops
      exact absurd rfl stops
    · exact .inr ⟨many, rfl⟩

lemma Laid.reply (h : Laid bare n pairs) (numbers : ∀ ends ∈ bare.ends call, bare.Numbers ends) :
    ∃ reply, n.reply call = .ok (reply, n.insertLinks (bare.ends call)) := by
  rw [← h.ends] at numbers ⊢
  obtain ⟨reply, replied, _⟩ :=
    h.regular.reply (inRange_of_numbers fun ends member => h.numbers_iff.mpr (numbers ends member))
  exact ⟨reply, replied⟩

/-- Calls between nodes of the lattice add just the links that are asked for, unless arithmetic stops, for which the
lattice must have too many nodes. -/
lemma Laid.extend? (h : Laid bare n pairs) (onLattice : ∀ call ∈ calls, call.OnLattice bare) :
    (n.extend? calls = some (.ok (n.insertLinks (calls.flatMap bare.ends))) ∧
      Laid bare (n.insertLinks (calls.flatMap bare.ends)) (pairs ++ calls.flatMap bare.ends)) ∨
    2 ^ 32 < bare.nodeCount ∧ n.extend? calls = none := by
  induction calls generalizing n pairs with
  | nil =>
    refine .inl ⟨rfl, ?_⟩
    rw [List.flatMap_nil, List.append_nil]
    exact h
  | cons call calls ih =>
    obtain ⟨here, later⟩ := List.forall_mem_cons.mp onLattice
    unfold Network.extend?
    rw [h.admits]
    rcases admits_or here with ⟨goes, numbers⟩ | ⟨many, stops⟩
    · obtain ⟨reply, replied⟩ := h.reply numbers
      rw [if_pos goes, replied, List.flatMap_cons, insertLinks_append, ← List.append_assoc]
      exact ih (h.insertLinks numbers) later
    · refine .inr ⟨many, if_neg ?_⟩
      rw [stops]
      exact Bool.false_ne_true

/-! ## The full lattice -/

/-- The calls that add the links of the full lattice. -/
def latticeCalls (columns rows : Nat) : List RoadCall :=
  (neighbours columns rows).map fun pair => .double pair.1 pair.2

lemma mem_neighbours {columns rows : Nat} {p q : Position} : (p, q) ∈ neighbours columns rows ↔
    (p.column < columns ∧ p.row < rows) ∧ (q.column < columns ∧ q.row < rows) ∧
      (q = ⟨p.column + 1, p.row⟩ ∨ q = ⟨p.column, p.row + 1⟩) := by
  unfold neighbours
  simp only [List.mem_flatMap, List.mem_range, List.mem_append]
  constructor
  · rintro ⟨x, column, y, row, right | up⟩
    · split at right
      · rename_i inside
        cases List.mem_singleton.mp right
        exact ⟨⟨column, row⟩, ⟨inside, row⟩, .inl rfl⟩
      · cases right
    · split at up
      · rename_i inside
        cases List.mem_singleton.mp up
        exact ⟨⟨column, row⟩, ⟨column, inside⟩, .inr rfl⟩
      · cases up
  · rintro ⟨⟨column, row⟩, ⟨column', row'⟩, rfl | rfl⟩
    · refine ⟨p.column, column, p.row, row, .inl ?_⟩
      rw [if_pos column']
      exact List.mem_singleton_self _
    · refine ⟨p.column, column, p.row, row, .inr ?_⟩
      rw [if_pos row']
      exact List.mem_singleton_self _

lemma beside_iff {p q : Position} : p.Beside q ↔
    (q = ⟨p.column + 1, p.row⟩ ∨ q = ⟨p.column, p.row + 1⟩) ∨
      (p = ⟨q.column + 1, q.row⟩ ∨ p = ⟨q.column, q.row + 1⟩) := by
  obtain ⟨x, y⟩ := p
  obtain ⟨x', y'⟩ := q
  unfold Position.Beside Nat.dist
  simp only [Position.mk.injEq]
  omega

/-- The full lattice is to have a link from each position to each one beside it. -/
lemma mem_ends_latticeCalls {columns rows : Nat} {params : NetworkParams} {ends : Nat × Nat} :
    let bare := nodesOnly columns rows params
    ends ∈ (latticeCalls columns rows).flatMap bare.ends ↔
      ∃ p q, bare.Spans p ∧ bare.Spans q ∧ p.Beside q ∧ ends = (bare.nodeAt p, bare.nodeAt q) := by
  intro bare
  unfold latticeCalls
  simp only [List.mem_flatMap, List.mem_map, exists_exists_and_eq_and]
  constructor
  · rintro ⟨⟨a, b⟩, listed, member⟩
    obtain ⟨spans, spans', next⟩ := mem_neighbours.mp listed
    rcases List.mem_pair.mp member with rfl | rfl
    · exact ⟨a, b, spans, spans', beside_iff.mpr (.inl next), rfl⟩
    · exact ⟨b, a, spans', spans, beside_iff.mpr (.inr next), rfl⟩
  · rintro ⟨p, q, spans, spans', beside, rfl⟩
    rcases beside_iff.mp beside with next | next
    · exact ⟨(p, q), mem_neighbours.mpr ⟨spans, spans', next⟩, List.mem_pair.mpr (.inl rfl)⟩
    · exact ⟨(q, p), mem_neighbours.mpr ⟨spans', spans, next⟩, List.mem_pair.mpr (.inr rfl)⟩

lemma latticeCalls_onLattice {columns rows : Nat} {params : NetworkParams} :
    ∀ call ∈ latticeCalls columns rows, call.OnLattice (nodesOnly columns rows params) := by
  intro call member ends asked
  obtain ⟨p, q, spans, spans', _, rfl⟩ := mem_ends_latticeCalls.mp (List.mem_flatMap.mpr ⟨call, member, asked⟩)
  exact ⟨nodeAt_lt spans, nodeAt_lt spans'⟩

/-- These calls lead to the full lattice. -/
lemma insertLinks_latticeCalls (columns rows : Nat) (params : NetworkParams) :
    let bare := nodesOnly columns rows params
    bare.insertLinks ((latticeCalls columns rows).flatMap bare.ends) = grid columns rows params := by
  intro bare
  have run : ∀ (pairs : List (Position × Position)) (n : Network), n.rows = rows →
      n.insertLinks ((pairs.map fun pair => RoadCall.double pair.1 pair.2).flatMap bare.ends) =
        pairs.foldl (fun n pair => n.insertDouble pair.1 pair.2) n := by
    intro pairs
    induction pairs with
    | nil => exact fun _ _ => rfl
    | cons pair pairs ih =>
      rintro n rfl
      rw [List.map_cons, List.flatMap_cons, insertLinks_append]
      exact ih (n.insertDouble pair.1 pair.2) rfl
  exact run _ _ rfl

/-- The links of the full lattice are those between positions that are beside one another. -/
lemma Laid.mem_linkList_grid {columns rows : Nat} {params : NetworkParams} {l : Link}
    (h : Laid (nodesOnly columns rows params) (grid columns rows params)
      ((latticeCalls columns rows).flatMap (nodesOnly columns rows params).ends)) :
    let bare := nodesOnly columns rows params
    l ∈ (grid columns rows params).linkList ↔
      ∃ p q, bare.Spans p ∧ bare.Spans q ∧ p.Beside q ∧ bare.newLink (bare.nodeAt p) (bare.nodeAt q) = l := by
  intro bare
  rw [h.regular.mem_linkList, h.has_iff]
  constructor
  · rintro ⟨ends, asked, same⟩
    obtain ⟨p, q, spans, spans', beside, rfl⟩ := mem_ends_latticeCalls.mp asked
    exact ⟨p, q, spans, spans', beside, same⟩
  · rintro ⟨p, q, spans, spans', beside, same⟩
    exact ⟨_, mem_ends_latticeCalls.mpr ⟨p, q, spans, spans', beside, rfl⟩, same⟩

/-! ## What the calls lead to -/

/-- Where arithmetic does not stop, it goes where the replies lead. -/
lemma transcript_of_extend? {last : Except OffLattice Network} (goes : n.extend? calls = some last) :
    (transcript Network.reply n calls).2 = last := by
  induction calls generalizing n with
  | nil => exact Option.some.inj goes
  | cons call calls ih =>
    unfold Network.extend? at goes
    unfold transcript
    split at goes
    · cases replied : n.reply call with
      | error fault =>
        rw [replied] at goes
        exact Option.some.inj goes
      | ok next =>
        rw [replied] at goes
        exact ih goes
    · cases goes

/-- Whatever links are added to a lattice, between nodes of it and in any order, the same ones again and again or
not: the links between different positions have different identities, the network has just one link for each pair of
nodes that was given, and each node lists just the links that leave it, each of them once. The full lattice has just
the links between positions that are beside one another. Checked arithmetic stops at a number that does not fit in a
word, for which the lattice must have more than `2 ^ 32` nodes. Where it does not stop, wrapping arithmetic leads to
the same network. -/
theorem links_listed (columns rows : Nat) (params : NetworkParams) (calls : List RoadCall)
    (onLattice : ∀ call ∈ calls, call.OnLattice (nodesOnly columns rows params)) :
    let bare := nodesOnly columns rows params
    let full := grid columns rows params
    bare.Distinguishes ∧
    ((∃ n, bare.extend? calls = some (.ok n) ∧ (transcript Network.reply bare calls).2 = .ok n ∧
        bare.Carries n (calls.flatMap bare.ends)) ∨
      2 ^ 32 < columns * rows ∧ bare.extend? calls = none) ∧
    (bare.extend? (latticeCalls columns rows) = some (.ok full) ∧
        bare.Carries full ((latticeCalls columns rows).flatMap bare.ends) ∧
        (∀ l, l ∈ full.linkList ↔
          ∃ p q, bare.Spans p ∧ bare.Spans q ∧ p.Beside q ∧ bare.newLink (bare.nodeAt p) (bare.nodeAt q) = l) ∨
      2 ^ 32 < columns * rows ∧ bare.extend? (latticeCalls columns rows) = none) := by
  intro bare full
  have start : Laid bare bare [] := laid_nodesOnly columns rows params
  refine ⟨bare.distinguishes, ?_, ?_⟩
  · rcases start.extend? onLattice with ⟨goes, laid⟩ | stops
    · exact .inl ⟨_, goes, transcript_of_extend? goes, laid.carries⟩
    · exact .inr stops
  · rcases start.extend? latticeCalls_onLattice with ⟨goes, laid⟩ | stops
    · rw [insertLinks_latticeCalls] at goes laid
      exact .inl ⟨goes, laid.carries, fun l => laid.mem_linkList_grid⟩
    · exact .inr stops

/-- A road in both directions, one of them once more, a road off to the side, and a loop. -/
def roundabout : List RoadCall :=
  [.double ⟨0, 0⟩ ⟨1, 0⟩, .oneWay ⟨0, 0⟩ ⟨1, 0⟩, .oneWay ⟨0, 0⟩ ⟨0, 1⟩, .oneWay ⟨1, 0⟩ ⟨1, 0⟩]

theorem links_listed_roundabout :
    let bare := nodesOnly 2 2 {}
    (∀ call ∈ roundabout, call.OnLattice bare) ∧
      ∃ n, (transcript Network.reply bare roundabout).2 = .ok n ∧ n.linkList.length = 4 ∧
        n.outgoing[0]? = some [⟨2⟩, ⟨1⟩] ∧
        (∀ id, id ∈ [(⟨2⟩ : LinkId), ⟨1⟩] ↔ ∃ l ∈ n.linkList, l.id = id ∧ l.tail = 0) ∧
        (grid 2 2 {}).linkList.length = 8 := by
  intro bare
  have onLattice : ∀ call ∈ roundabout, call.OnLattice bare := by
    unfold roundabout RoadCall.OnLattice
    decide
  obtain ⟨_, goes, full⟩ := links_listed 2 2 {} roundabout onLattice
  rcases goes with ⟨n, _, goes, carries⟩ | ⟨_, stops⟩
  · have listed : n.outgoing[0]? = some [⟨2⟩, ⟨1⟩] := by
      obtain rfl := Except.ok.inj goes
      decide +kernel
    refine ⟨onLattice, n, goes, ?_, listed, (carries.outgoing 0 _ listed).2, ?_⟩
    · rw [carries.links.length_eq]
      rfl
    · rcases full with ⟨_, carries, _⟩ | ⟨_, stops⟩
      · rw [carries.links.length_eq]
        rfl
      · cases stops
  · cases stops

end Network

end RideDispatch

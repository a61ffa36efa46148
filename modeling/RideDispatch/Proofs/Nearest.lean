import Mathlib.Data.List.Perm.Subperm
import RideDispatch.Proofs.Tidy

/-!
# The nearest members of a map

`ZoneMap.nearest` looks at ever larger regions and stops as soon as one of them holds enough members. What
it gives depends on nothing but where the members are, in whatever order they have come, moved and gone
(`ZoneMap.nearest_members`): as many members as there are, up to the limit, and no member that has been
looked at is nearer than one that is given. The rank of a member is a matter of its place alone
(`Nearer`), and ranking keeps just the first ones in that order (`rank_nearer`, `nearer_of_not_mem_rank`);
which members are looked at is said in `mem_candidates`, and that they are enough in
`le_length_candidates`, since one ring more never loses a member.
-/

namespace RideDispatch.ZoneMap

variable {κ : Type} [Ord κ] [Std.TransOrd κ] {m : ZoneMap κ} {coord : Coordinate} {key k k' : κ}
variable {keys : List κ} {eligible : κ → Bool} {origin : Globe.Cell} {limit radius : Nat}

/-! ## Ranks -/

/-- A member comes before another one: it is nearer to a coordinate, or just as near and its key is
smaller. -/
def Nearer (m : ZoneMap κ) (coord : Coordinate) (key key' : κ) : Prop :=
  ∃ place place', m.place? key = some place ∧ m.place? key' = some place' ∧
    let distance := totalOrderKey (coord.distanceKm place.coord)
    let distance' := totalOrderKey (coord.distanceKm place'.coord)
    (distance < distance' ∨ distance = distance' ∧ compare key key' = .lt)

/-- A key with the distance of its member. -/
def score? (m : ZoneMap κ) (coord : Coordinate) (key : κ) : Option (Int × κ) :=
  (m.place? key).map fun place => (totalOrderKey (coord.distanceKm place.coord), key)

/-- Some members in the order of their ranks. -/
def ranking (m : ZoneMap κ) (coord : Coordinate) (keys : List κ) : List κ :=
  ((keys.filterMap (m.score? coord)).mergeSort ranksBefore).map Prod.snd

lemma rank_eq : m.rank coord keys limit = (m.ranking coord keys).take limit :=
  List.map_take

/-- What ranks no later than another member comes before it. -/
lemma nearer_of_ranksBefore [Std.LawfulEqOrd κ] {a b : Int × κ} (first : m.score? coord k = some a)
    (second : m.score? coord k' = some b) (before : ranksBefore a b = true) (other : a.2 ≠ b.2) :
    m.Nearer coord a.2 b.2 := by
  obtain ⟨place, found, rfl⟩ := Option.map_eq_some_iff.mp first
  obtain ⟨place', found', rfl⟩ := Option.map_eq_some_iff.mp second
  refine ⟨place, place', found, found', ?_⟩
  rcases ranksBefore_iff.mp before with near | ⟨same, before⟩
  · exact .inl near
  · refine .inr ⟨same, ?_⟩
    cases order : compare k k' with
    | lt => rfl
    | eq => exact absurd (Std.compare_eq_iff_eq.mp order) other
    | gt =>
      rw [show compare (_, k).2 (_, k').2 = compare k k' from rfl, order] at before
      cases before

section Ranking

variable (placed : ∀ k ∈ keys, m.contains k = true) (nodup : keys.Nodup)

include placed

/-- Nothing is lost in the ranking of members. -/
lemma ranking_perm : (m.ranking coord keys).Perm keys := by
  have scored : ∀ k ∈ keys, (m.score? coord k).map Prod.snd = some k := by
    intro k member
    have some_ := placed k member
    rw [contains_eq_isSome_place?] at some_
    obtain ⟨place, found⟩ := Option.isSome_iff_exists.mp some_
    unfold score?
    rw [found]
    rfl
  have keys_ : (keys.filterMap (m.score? coord)).map Prod.snd = keys := by
    rw [List.map_filterMap]
    exact (List.filterMap_congr scored).trans List.filterMap_some
  calc
    (m.ranking coord keys).Perm ((keys.filterMap (m.score? coord)).map Prod.snd) :=
      (List.mergeSort_perm _ _).map Prod.snd
    _ = keys := keys_

lemma length_rank : (m.rank coord keys limit).length = min limit keys.length := by
  rw [rank_eq, List.length_take, (ranking_perm placed).length_eq]

include nodup

lemma nodup_rank : (m.rank coord keys limit).Nodup := by
  rw [rank_eq]
  exact ((ranking_perm placed).nodup_iff.mpr nodup).sublist (List.take_sublist _ _)

variable [Std.LawfulEqOrd κ]

lemma ranking_nearer : (m.ranking coord keys).Pairwise (m.Nearer coord) := by
  have distinct : (m.ranking coord keys).Nodup := (ranking_perm placed).nodup_iff.mpr nodup
  have sorted := List.pairwise_mergeSort ranksBefore_trans ranksBefore_total
    (keys.filterMap (m.score? coord))
  unfold ranking at *
  refine List.pairwise_map.mpr ((sorted.and (List.pairwise_map.mp distinct)).imp_of_mem ?_)
  rintro a b member member' ⟨before, other⟩
  obtain ⟨_, _, first⟩ := List.mem_filterMap.mp (List.mem_mergeSort.mp member)
  obtain ⟨_, _, second⟩ := List.mem_filterMap.mp (List.mem_mergeSort.mp member')
  exact nearer_of_ranksBefore first second before other

lemma rank_nearer : (m.rank coord keys limit).Pairwise (m.Nearer coord) := by
  rw [rank_eq]
  exact (ranking_nearer placed nodup).sublist (List.take_sublist _ _)

/-- What is left out of the first ranks comes after all of them. -/
lemma nearer_of_not_mem_rank (member : k ∈ keys) (out : k ∉ m.rank coord keys limit)
    (chosen : k' ∈ m.rank coord keys limit) : m.Nearer coord k' k := by
  have ordered : (m.ranking coord keys).Pairwise (m.Nearer coord) := ranking_nearer placed nodup
  have listed : k ∈ m.ranking coord keys := (ranking_perm placed).mem_iff.mpr member
  rw [← List.take_append_drop limit (m.ranking coord keys)] at ordered listed
  rw [rank_eq] at out chosen
  have late := (List.mem_append.mp listed).resolve_left out
  exact (List.pairwise_append.mp ordered).2.2 k' chosen k late

end Ranking

/-! ## What is looked at -/

/-- The radius of the region that is looked at last. There is none if no region holds enough members, so
that all of them are looked at. -/
def lastRadius? (m : ZoneMap κ) (eligible : κ → Bool) (origin : Globe.Cell) (limit : Nat) : Option Nat :=
  (radii.find? fun radius => limit ≤ (m.within eligible origin radius).length).map (· + 1)

/-- A cell is looked at. -/
def LooksAt (m : ZoneMap κ) (eligible : κ → Bool) (origin : Globe.Cell) (limit : Nat) (cell : Globe.Cell) :
    Prop :=
  ∀ radius, m.lastRadius? eligible origin limit = some radius → (m.region origin radius).contains cell = true

lemma candidates_eq : m.candidates eligible origin limit =
    match m.lastRadius? eligible origin limit with
    | some radius => m.within eligible origin radius
    | none => m.keys.filter eligible := by
  unfold candidates lastRadius?
  cases radii.find? fun radius => limit ≤ (m.within eligible origin radius).length <;> rfl

lemma Tidy.nodup_candidates (h : m.Tidy) : (m.candidates eligible origin limit).Nodup := by
  rw [candidates_eq]
  split
  · exact h.nodup_within
  · exact nodup_keys.filter _

lemma mem_keys_filter [Std.LawfulEqOrd κ] :
    k ∈ m.keys.filter eligible ↔ m.contains k = true ∧ eligible k = true := by
  rw [List.mem_filter, mem_keys]

lemma contains_of_cell? {cell : Globe.Cell} (here : m.cell? k = some cell) : m.contains k = true := by
  obtain ⟨entry, found, _⟩ := Option.map_eq_some_iff.mp here
  unfold contains
  rw [Table.contains_eq_isSome, found]
  rfl

/-- The members among which the nearest ones are chosen are the eligible ones in the cells that are looked
at. -/
lemma Tidy.mem_candidates [Std.LawfulEqOrd κ] (h : m.Tidy) :
    k ∈ m.candidates eligible origin limit ↔
      ∃ cell, m.cell? k = some cell ∧ m.LooksAt eligible origin limit cell ∧ eligible k = true := by
  rw [candidates_eq]
  unfold LooksAt
  cases m.lastRadius? eligible origin limit with
  | some radius =>
    rw [h.mem_within]
    simp only [Option.some.injEq, forall_eq']
  | none =>
    rw [mem_keys_filter]
    constructor
    · rintro ⟨member, chosen⟩
      unfold contains at member
      rw [Table.contains_eq_isSome] at member
      obtain ⟨entry, found⟩ := Option.isSome_iff_exists.mp member
      exact ⟨entry.cell, Option.map_eq_some_iff.mpr ⟨entry, found, rfl⟩, nofun, chosen⟩
    · rintro ⟨cell, here, _, chosen⟩
      exact ⟨contains_of_cell? here, chosen⟩

/-- One ring more loses no member. -/
lemma Tidy.within_subset (h : m.Tidy) (small : radius < Globe.Region.clearance) :
    m.within eligible origin radius ⊆ m.within eligible origin (radius + 1) := by
  intro k member
  obtain ⟨cell, here, inside, chosen⟩ := h.mem_within.mp member
  exact h.mem_within.mpr ⟨cell, here, Globe.Region.contains_succ small inside, chosen⟩

/-- What is looked at holds as many eligible members as are asked for, if there are so many. -/
lemma Tidy.le_length_candidates (h : m.Tidy) (many : limit ≤ (m.keys.filter eligible).length) :
    limit ≤ (m.candidates eligible origin limit).length := by
  unfold candidates
  split
  · rename_i radius found
    have small : radius < Globe.Region.clearance := by
      have listed := List.mem_of_find?_eq_some found
      have all : ∀ radius ∈ radii, radius < Globe.Region.clearance := by decide
      exact all radius listed
    have enough : limit ≤ (m.within eligible origin radius).length := by
      simpa using List.find?_some found
    exact Nat.le_trans enough (List.subperm_of_subset h.nodup_within (h.within_subset small)).length_le
  · exact many

/-! ## Maps with the same members -/

variable [Std.LawfulEqOrd κ]

/-- Where each member is determines all there is in a map, up to the order of its buckets. -/
lemma Filed.alike {m' : ZoneMap κ} {resolution : Resolution} (h : m.Filed resolution)
    (h' : m'.Filed resolution) (same : ∀ k, m'.place? k = m.place? k) : m.Alike m' where
  resolution := h'.resolution_eq.trans h.resolution_eq.symm
  members := by
    apply Std.ExtTreeMap.ext_getElem?
    intro k
    rw [h.members_eq, h'.members_eq, same]
  left := h.tidy
  right := h'.tidy

variable [DecidableEq κ]

/-- After any changes of an empty map, the nearest members to a coordinate that are eligible are as many as
the limit allows, and none of them comes twice. If the limit allows all, these are all of them in the order
of their keys. If not, they are in the order of their ranks, and any other eligible member in a cell that has
been looked at comes after all of them. Another map of the same resolution with the same members in the same
places gives the same, whatever has become of it before. -/
theorem nearest_members (resolution : Resolution) (changes : List (Change κ)) (coord : Coordinate)
    (limit : Nat) (eligible : κ → Bool) :
    let m := reached resolution changes
    let members := m.keys.filter eligible
    let near := m.nearest coord limit eligible
    (near.Nodup ∧ near ⊆ members ∧ near.length = min limit members.length) ∧
    (members.length ≤ limit → near = members ∧ near.Pairwise fun k k' => compare k k' = .lt) ∧
    (limit < members.length → near.Pairwise (m.Nearer coord) ∧
      ∀ k ∈ members, k ∉ near →
        (∀ place, m.place? k = some place →
          m.LooksAt eligible (Globe.cellOf resolution coord) limit (Globe.cellOf resolution place.coord)) →
        ∀ k' ∈ near, m.Nearer coord k' k) ∧
    ∀ changes', (∀ k, (reached resolution changes').place? k = m.place? k) →
      (reached resolution changes').nearest coord limit eligible = near := by
  intro m members near
  have filed : m.Filed resolution := filed_reached resolution changes
  have again : ∀ changes', (∀ k, (reached resolution changes').place? k = m.place? k) →
      (reached resolution changes').nearest coord limit eligible = near :=
    fun changes' same => (filed.alike (filed_reached resolution changes') same).nearest
  by_cases few : members.length ≤ limit
  · have all : near = members := if_pos few
    have ascending : members.Pairwise fun k k' => compare k k' = .lt :=
      Std.ExtTreeMap.ordered_keys.filter eligible
    rw [all]
    refine ⟨⟨nodup_keys.filter eligible, List.Subset.refl _, (Nat.min_eq_right few).symm⟩, ?_, ?_, all ▸ again⟩
    · exact fun _ => ⟨rfl, ascending⟩
    · exact fun many => absurd few (Nat.not_le.mpr many)
  · set origin := Globe.cellOf resolution coord
    have chosen : near = m.rank coord (m.candidates eligible origin limit) limit := by
      refine (if_neg few).trans ?_
      rw [filed.resolution_eq]
    have nodup : (m.candidates eligible origin limit).Nodup := filed.tidy.nodup_candidates
    have listed : m.candidates eligible origin limit ⊆ members := by
      intro k member
      obtain ⟨cell, here, _, own⟩ := filed.tidy.mem_candidates.mp member
      exact mem_keys_filter.mpr ⟨contains_of_cell? here, own⟩
    have placed : ∀ k ∈ m.candidates eligible origin limit, m.contains k = true :=
      fun k member => (mem_keys_filter.mp (listed member)).1
    have enough : limit ≤ (m.candidates eligible origin limit).length :=
      filed.tidy.le_length_candidates (Nat.le_of_not_le few)
    rw [chosen] at again ⊢
    refine ⟨⟨nodup_rank placed nodup, ?_, ?_⟩, fun few' => absurd few' few, fun _ => ⟨?_, ?_⟩, again⟩
    · exact fun k member => listed (mem_rank member).1
    · rw [length_rank placed, Nat.min_eq_left enough, Nat.min_eq_left (Nat.le_of_not_le few)]
    · exact rank_nearer placed nodup
    · intro k member out looked k' first
      obtain ⟨contained, own⟩ := mem_keys_filter.mp member
      rw [contains_eq_isSome_place?] at contained
      obtain ⟨place, found⟩ := Option.isSome_iff_exists.mp contained
      have cell : m.cell? k = some (Globe.cellOf resolution place.coord) := by
        rw [filed.cell_eq, found]
        rfl
      have candidate : k ∈ m.candidates eligible origin limit :=
        filed.tidy.mem_candidates.mpr ⟨_, cell, looked place found, own⟩
      exact nearer_of_not_mem_rank placed nodup candidate out first

/-- Four vehicles come, then one of them moves and one goes. -/
def comings : List (Change VehicleId) :=
  [.insert ⟨1⟩ (.onDiagonal 5), .insert ⟨4⟩ (.onDiagonal 1), .insert ⟨2⟩ (.onDiagonal 9),
    .insert ⟨3⟩ (.onDiagonal 2), .insert ⟨1⟩ (.onDiagonal 3), .erase ⟨2⟩]

theorem nearest_members_comings :
    let m := reached 9 comings
    let coord := (Place.onDiagonal 2).coord
    let near := m.nearest coord 2 fun _ => true
    m.keys = [⟨1⟩, ⟨3⟩, ⟨4⟩] ∧ near.length = 2 ∧ near.Nodup ∧ near.Pairwise (m.Nearer coord) := by
  have keys : (reached 9 comings).keys = [⟨1⟩, ⟨3⟩, ⟨4⟩] := by decide +kernel
  obtain ⟨⟨nodup, _, length⟩, _, ranked, _⟩ :=
    nearest_members 9 comings (Place.onDiagonal 2).coord 2 fun _ => true
  rw [keys] at length ranked
  exact ⟨keys, length, nodup, (ranked (by decide)).1⟩

end RideDispatch.ZoneMap

import Mathlib.Data.List.Nodup
import RideDispatch.Proofs.Zone

/-!
# Tidy zone maps

How a zone map gathers its members by cells depends on the order in which they came. It is `Tidy` if the
bucket of each cell lists just the keys of the members that are in the cell, each of them once; `insert` and
`erase` keep it so. Two tidy maps with the same members are `Alike`: every region holds the same keys in
both, though maybe in another order, and as keys decide where distances are equal, the same members are the
nearest, in the same order (`Alike.nearest`).
-/

namespace RideDispatch.ZoneMap

/-! ## Ranks -/

lemma ranksBefore_iff {κ : Type} [Ord κ] {a b : Int × κ} :
    ranksBefore a b = true ↔ a.1 < b.1 ∨ a.1 = b.1 ∧ (compare a.2 b.2).isLE = true := by
  simp [ranksBefore]

section Ranks

variable {κ : Type} [Ord κ] [Std.TransOrd κ] {a b : Int × κ}

lemma ranksBefore_trans (a b c : Int × κ) (first : ranksBefore a b = true)
    (second : ranksBefore b c = true) : ranksBefore a c = true := by
  rw [ranksBefore_iff] at *
  rcases first with near | ⟨same, before⟩
  · exact .inl (by omega)
  · rcases second with near | ⟨same', before'⟩
    · exact .inl (by omega)
    · exact .inr ⟨same.trans same', Std.TransCmp.isLE_trans before before'⟩

lemma ranksBefore_total (a b : Int × κ) : (ranksBefore a b || ranksBefore b a) = true := by
  rw [Bool.or_eq_true, ranksBefore_iff, ranksBefore_iff]
  rcases Int.lt_trichotomy a.1 b.1 with near | same | far
  · exact .inl (.inl near)
  · cases order : compare a.2 b.2 with
    | gt => exact .inr (.inr ⟨same.symm, by rw [Std.OrientedCmp.gt_iff_lt.mp order]; rfl⟩)
    | _ => exact .inl (.inr ⟨same, rfl⟩)
  · exact .inr (.inl far)

lemma ranksBefore_antisymm [Std.LawfulEqOrd κ] (first : ranksBefore a b = true)
    (second : ranksBefore b a = true) : a = b := by
  rw [ranksBefore_iff] at *
  rcases first with near | ⟨same, before⟩
  · omega
  · rcases second with near | ⟨_, after⟩
    · omega
    · exact Prod.ext same (Std.compare_eq_iff_eq.mp (Std.OrientedCmp.isLE_antisymm before after))

end Ranks

/-! ## Buckets -/

section Buckets

variable {κ : Type} {buckets : Std.ExtTreeMap Globe.Cell (List κ)} {key : κ} {cell c : Globe.Cell}

/-- The keys in a cell. -/
def keysIn (buckets : Std.ExtTreeMap Globe.Cell (List κ)) (cell : Globe.Cell) : List κ :=
  buckets[cell]?.getD []

lemma keysIn_attach : keysIn (attach buckets key cell) c =
    if cell = c then keysIn buckets c ++ [key] else keysIn buckets c := by
  unfold keysIn attach
  rw [Table.getElem?_insert]
  by_cases same : cell = c
  · rw [if_pos same, if_pos same, same]
    rfl
  · rw [if_neg same, if_neg same]

/-- A key may come into a cell of buckets that do not list it. -/
lemma nodup_attach (h : (keysIn buckets c).Nodup) (new : key ∉ keysIn buckets c) :
    (keysIn (attach buckets key cell) c).Nodup := by
  rw [keysIn_attach]
  split
  · apply List.nodup_append.mpr
    refine ⟨h, List.nodup_singleton key, ?_⟩
    rintro k member k' one rfl
    rw [List.mem_singleton.mp one] at member
    exact new member
  · exact h

lemma keysIn_detach [Ord κ] [Std.LawfulEqOrd κ] [DecidableEq κ] : keysIn (detach buckets key cell) c =
    if cell = c then (keysIn buckets c).filter (· ≠ key) else keysIn buckets c := by
  have others : (fun k => decide (compare k key ≠ .eq)) = fun k => decide (k ≠ key) := by
    funext k
    simp only [ne_eq, Std.compare_eq_iff_eq]
  unfold keysIn detach
  rw [others]
  cases found : buckets[cell]? with
  | none =>
    by_cases same : cell = c
    · subst same
      simp [found]
    · rw [if_neg same]
  | some keys =>
    simp only
    split
    · rename_i none_
      rw [Table.getElem?_erase]
      by_cases same : cell = c
      · subst same
        rw [if_pos rfl, if_pos rfl, found]
        exact (List.isEmpty_iff.mp none_).symm
      · rw [if_neg same, if_neg same]
    · rw [Table.getElem?_insert]
      by_cases same : cell = c
      · subst same
        rw [if_pos rfl, if_pos rfl, found]
        rfl
      · rw [if_neg same, if_neg same]

end Buckets

/-! ## Tidy maps -/

section Tidy

variable {κ : Type} [Ord κ] [Std.TransOrd κ] {m : ZoneMap κ} {key k : κ} {place : Place}
variable {cell c : Globe.Cell} {buckets : Std.ExtTreeMap Globe.Cell (List κ)}

/-- The cell in which a member is. -/
def cell? (m : ZoneMap κ) (key : κ) : Option Globe.Cell := m.members[key]?.map ZoneMember.cell

/-- Each bucket lists the keys of the members in its cell, each of them once. -/
structure Tidy (m : ZoneMap κ) : Prop where
  nodup : ∀ cell, (keysIn m.buckets cell).Nodup
  mem_iff : ∀ cell k, k ∈ keysIn m.buckets cell ↔ m.cell? k = some cell

lemma Tidy.empty {resolution : Resolution} : (empty resolution : ZoneMap κ).Tidy where
  nodup _ := .nil
  mem_iff cell k := by
    unfold keysIn cell?
    simp [ZoneMap.empty]

/-- A tidy map in which each member is in the cell of its place. -/
structure Filed (m : ZoneMap κ) (resolution : Resolution) : Prop where
  tidy : m.Tidy
  resolution_eq : m.resolution = resolution
  cell_eq : ∀ k, m.cell? k = (m.place? k).map fun place => Globe.cellOf resolution place.coord

lemma Filed.empty {resolution : Resolution} :
    (ZoneMap.empty resolution : ZoneMap κ).Filed resolution where
  tidy := .empty
  resolution_eq := rfl
  cell_eq k := by
    unfold cell? place?
    simp [ZoneMap.empty]

/-- The entry of a member is a matter of its place. -/
lemma Filed.members_eq {resolution : Resolution} (h : m.Filed resolution) (k : κ) : m.members[k]? =
    (m.place? k).map fun place => ⟨Globe.cellOf resolution place.coord, place⟩ := by
  have own := h.cell_eq k
  unfold cell? place? at *
  cases found : m.members[k]? with
  | none => rfl
  | some entry =>
    rw [found] at own
    have cell : entry.cell = Globe.cellOf resolution entry.place.coord := Option.some.inj own
    show some entry = some ⟨Globe.cellOf resolution entry.place.coord, entry.place⟩
    rw [← cell]

/-- A bucket lists the members that are placed in its cell. -/
lemma Filed.mem_keysIn {resolution : Resolution} (h : m.Filed resolution) :
    k ∈ keysIn m.buckets cell ↔ ∃ place, m.place? k = some place ∧
      Globe.cellOf resolution place.coord = cell := by
  rw [h.tidy.mem_iff, h.cell_eq, Option.map_eq_some_iff]

/-- The region in which a map looks for members. -/
abbrev region (m : ZoneMap κ) (origin : Globe.Cell) (radius : Nat) : Globe.Region :=
  .ofRadius (.ofResolution m.resolution) origin radius

lemma Tidy.mem_within {eligible : κ → Bool} {origin : Globe.Cell} {radius : Nat} (h : m.Tidy) :
    k ∈ m.within eligible origin radius ↔
      ∃ c, m.cell? k = some c ∧ (m.region origin radius).contains c = true ∧ eligible k = true := by
  unfold within
  simp only [List.mem_flatMap, Prod.exists, Std.ExtTreeMap.mem_toList_iff_getElem?_eq_some]
  constructor
  · rintro ⟨c, keys, bucket, member⟩
    split at member
    · rename_i inside
      obtain ⟨here, chosen⟩ := List.mem_filter.mp member
      refine ⟨c, (h.mem_iff c k).mp ?_, inside, chosen⟩
      rw [keysIn, bucket]
      exact here
    · cases member
  · rintro ⟨c, here, inside, chosen⟩
    have listed := (h.mem_iff c k).mpr here
    unfold keysIn at listed
    cases bucket : m.buckets[c]? with
    | none =>
      rw [bucket] at listed
      cases listed
    | some keys =>
      rw [bucket] at listed
      refine ⟨c, keys, bucket, ?_⟩
      rw [if_pos inside]
      exact List.mem_filter.mpr ⟨listed, chosen⟩

lemma Tidy.nodup_within {eligible : κ → Bool} {origin : Globe.Cell} {radius : Nat} (h : m.Tidy) :
    (m.within eligible origin radius).Nodup := by
  have listed : ∀ bucket ∈ m.buckets.toList, bucket.2 = keysIn m.buckets bucket.1 := by
    intro bucket member
    rw [keysIn, Std.ExtTreeMap.mem_toList_iff_getElem?_eq_some.mp member]
    rfl
  unfold within
  refine List.nodup_flatMap.mpr ⟨?_, ?_⟩
  · intro bucket member
    split
    · rw [listed bucket member]
      exact (h.nodup _).filter _
    · exact .nil
  · refine Std.ExtTreeMap.distinct_keys_toList.imp_of_mem ?_
    intro first second member member' apart k here there
    -- a key that two buckets list is in both of their cells
    have own : ∀ bucket ∈ m.buckets.toList,
        k ∈ (if (m.region origin radius).contains bucket.1 then bucket.2.filter eligible else []) →
          m.cell? k = some bucket.1 := by
      intro bucket member here
      split at here
      · rw [listed bucket member] at here
        exact (h.mem_iff _ _).mp (List.mem_filter.mp here).1
      · cases here
    have same := (own first member here).symm.trans (own second member' there)
    exact apart (Std.compare_eq_iff_eq.mpr (Option.some.inj same))

variable [DecidableEq κ]

lemma mem_attach (h : k ∈ keysIn buckets c ↔ k ≠ key ∧ m.cell? k = some c) :
    k ∈ keysIn (attach buckets key cell) c ↔ (if key = k then some cell else m.cell? k) = some c := by
  rw [keysIn_attach]
  by_cases same : key = k
  · subst same
    rw [if_pos rfl, Option.some.injEq]
    split
    · rename_i here
      simp [here]
    · rename_i away
      simp [h, away]
  · rw [if_neg same]
    have other : k ≠ key := fun e => same e.symm
    split
    · simp [h, other]
    · simp [h, other]

variable [Std.LawfulEqOrd κ]

lemma cell?_insert : (m.insert key place).cell? k =
    if key = k then some (Globe.cellOf m.resolution place.coord) else m.cell? k := by
  unfold cell? insert
  rw [Table.getElem?_insert]
  split <;> rfl

lemma Tidy.mem_detach (h : m.Tidy) (old : m.cell? key = some cell) :
    k ∈ keysIn (detach m.buckets key cell) c ↔ k ≠ key ∧ m.cell? k = some c := by
  rw [keysIn_detach]
  by_cases same : cell = c
  · rw [if_pos same, List.mem_filter, h.mem_iff, decide_eq_true_iff, and_comm]
  · rw [if_neg same, h.mem_iff]
    constructor
    · intro here
      refine ⟨?_, here⟩
      rintro rfl
      exact same (Option.some.inj (old.symm.trans here))
    · exact And.right

lemma Tidy.nodup_detach (h : m.Tidy) : (keysIn (detach m.buckets key cell) c).Nodup := by
  rw [keysIn_detach]
  split
  · exact (h.nodup c).filter _
  · exact h.nodup c

/-- A member that comes or moves keeps a map tidy. -/
lemma Tidy.insert (h : m.Tidy) (key : κ) (place : Place) : (m.insert key place).Tidy := by
  suffices both : ∀ c, (keysIn (m.insert key place).buckets c).Nodup ∧ ∀ k,
      k ∈ keysIn (m.insert key place).buckets c ↔ (m.insert key place).cell? k = some c from
    ⟨fun c => (both c).1, fun c => (both c).2⟩
  intro c
  simp only [cell?_insert]
  unfold ZoneMap.insert
  cases found : m.members[key]? with
  | none =>
    have absent : m.cell? key = none := by rw [cell?, found]; rfl
    have new : key ∉ keysIn m.buckets c := by
      rw [h.mem_iff, absent]
      exact nofun
    refine ⟨nodup_attach (h.nodup c) new, fun k => mem_attach ?_⟩
    rw [h.mem_iff]
    refine ⟨fun here => ⟨?_, here⟩, And.right⟩
    rintro rfl
    rw [absent] at here
    cases here
  | some old =>
    have before : m.cell? key = some old.cell := by rw [cell?, found]; rfl
    simp only
    split
    · rename_i stays
      refine ⟨h.nodup c, fun k => ?_⟩
      rw [h.mem_iff]
      by_cases same : key = k
      · rw [if_pos same, ← same, before, stays]
      · rw [if_neg same]
    · refine ⟨nodup_attach h.nodup_detach ?_, fun k => mem_attach (h.mem_detach before)⟩
      rw [h.mem_detach before]
      exact fun both => both.1 rfl

/-- A member that goes leaves a map tidy. -/
lemma Tidy.erase (h : m.Tidy) (key : κ) : (m.erase key).Tidy := by
  unfold ZoneMap.erase
  cases found : m.members[key]? with
  | none => exact h
  | some old =>
    have before : m.cell? key = some old.cell := by rw [cell?, found]; rfl
    refine ⟨fun _ => h.nodup_detach, fun c k => ?_⟩
    show k ∈ keysIn (detach m.buckets key old.cell) c ↔ (m.members.erase key)[k]?.map _ = _
    rw [h.mem_detach before, Table.getElem?_erase]
    by_cases same : key = k
    · rw [if_pos same]
      exact iff_of_false (fun both => both.1 same.symm) nofun
    · rw [if_neg same]
      exact and_iff_right fun e => same e.symm

lemma Filed.insert {resolution : Resolution} (h : m.Filed resolution) (key : κ) (place : Place) :
    (m.insert key place).Filed resolution where
  tidy := h.tidy.insert key place
  resolution_eq := h.resolution_eq
  cell_eq k := by
    rw [cell?_insert, place?_insert, h.resolution_eq, h.cell_eq]
    split <;> rfl

lemma Filed.erase {resolution : Resolution} (h : m.Filed resolution) (key : κ) :
    (m.erase key).Filed resolution where
  tidy := h.tidy.erase key
  resolution_eq := resolution_erase.trans h.resolution_eq
  cell_eq k := by
    unfold cell? place?
    rw [members_erase]
    split
    · rfl
    · exact h.cell_eq k

/-- What can become of a map: a member comes or moves, or goes. -/
inductive Change (κ : Type) where
  | insert (key : κ) (place : Place)
  | erase (key : κ)

/-- The map after a change. -/
def change (m : ZoneMap κ) : Change κ → ZoneMap κ
  | .insert key place => m.insert key place
  | .erase key => m.erase key

/-- What becomes of an empty map by some changes, one after the other. -/
def reached (resolution : Resolution) (changes : List (Change κ)) : ZoneMap κ :=
  changes.foldl change (.empty resolution)

/-- Whatever has become of a map, each member is in the cell of its place. -/
lemma filed_reached (resolution : Resolution) (changes : List (Change κ)) :
    (reached resolution changes).Filed resolution := by
  have run : ∀ m : ZoneMap κ, m.Filed resolution → (changes.foldl change m).Filed resolution := by
    induction changes with
    | nil => exact fun _ h => h
    | cons first rest ih =>
      intro m h
      apply ih
      cases first with
      | insert key place => exact h.insert key place
      | erase key => exact h.erase key
  exact run _ .empty

end Tidy

/-! ## Maps that are alike -/

section Alike

variable {κ : Type} [Ord κ] [Std.TransOrd κ] {m m' m'' : ZoneMap κ} {key : κ} {place : Place}
variable {eligible : κ → Bool} {origin : Globe.Cell} {radius limit : Nat} {coord : Coordinate}

/-- Two tidy maps with the same members. -/
structure Alike (m m' : ZoneMap κ) : Prop where
  resolution : m'.resolution = m.resolution
  members : m'.members = m.members
  left : m.Tidy
  right : m'.Tidy

namespace Alike

lemma refl (h : m.Tidy) : m.Alike m := ⟨rfl, rfl, h, h⟩

lemma trans (first : m.Alike m') (second : m'.Alike m'') : m.Alike m'' where
  resolution := second.resolution.trans first.resolution
  members := second.members.trans first.members
  left := first.left
  right := second.right

lemma keys (h : m.Alike m') : m'.keys = m.keys := by
  unfold ZoneMap.keys
  rw [h.members]

lemma within (h : m.Alike m') :
    (m.within eligible origin radius).Perm (m'.within eligible origin radius) := by
  apply (List.perm_ext_iff_of_nodup h.left.nodup_within h.right.nodup_within).mpr
  intro k
  rw [h.left.mem_within, h.right.mem_within]
  unfold region cell?
  rw [h.resolution, h.members]

lemma candidates (h : m.Alike m') :
    (m.candidates eligible origin limit).Perm (m'.candidates eligible origin limit) := by
  unfold ZoneMap.candidates
  have enough (radius : Nat) : (m'.within eligible origin radius).length =
      (m.within eligible origin radius).length := h.within.length_eq.symm
  simp only [enough, h.keys]
  split
  · exact h.within
  · exact .refl _

variable [Std.LawfulEqOrd κ]

/-- What is ranked is the same, whatever order the keys come in. -/
lemma rank (h : m.Alike m') {keys keys' : List κ} (perm : keys.Perm keys') :
    m'.rank coord keys' limit = m.rank coord keys limit := by
  unfold ZoneMap.rank place?
  rw [h.members]
  simp only
  congr 2
  refine List.Perm.eq_of_pairwise ?_ (List.pairwise_mergeSort ranksBefore_trans ranksBefore_total _)
    (List.pairwise_mergeSort ranksBefore_trans ranksBefore_total _) ?_
  · intro a b _ _ first second
    exact ranksBefore_antisymm first second
  · exact (List.mergeSort_perm _ _).trans ((perm.symm.filterMap _).trans (List.mergeSort_perm _ _).symm)

/-- The same members are the nearest. -/
theorem nearest (h : m.Alike m') : m'.nearest coord limit eligible = m.nearest coord limit eligible := by
  unfold ZoneMap.nearest
  rw [h.keys, h.resolution]
  simp only
  split
  · rfl
  · exact h.rank h.candidates

variable [DecidableEq κ]

lemma insert (h : m.Alike m') (key : κ) (place : Place) :
    (m.insert key place).Alike (m'.insert key place) where
  resolution := h.resolution
  members := by
    unfold ZoneMap.insert
    rw [h.resolution, h.members]
  left := h.left.insert key place
  right := h.right.insert key place

lemma erase (h : m.Alike m') (key : κ) : (m.erase key).Alike (m'.erase key) where
  resolution := by
    unfold ZoneMap.erase
    rw [h.members]
    split
    · exact h.resolution
    · exact h.resolution
  members := by
    unfold ZoneMap.erase
    rw [h.members]
    split
    · exact h.members
    · rfl
  left := h.left.erase key
  right := h.right.erase key

/-- It does not matter in which order two members come. -/
lemma insert_comm (h : m.Tidy) {key' : κ} {place' : Place} (ne : key ≠ key') :
    ((m.insert key place).insert key' place').Alike ((m.insert key' place').insert key place) where
  resolution := rfl
  members := Table.insert_comm ne.symm
  left := (h.insert key place).insert key' place'
  right := (h.insert key' place').insert key place

end Alike

end Alike

end RideDispatch.ZoneMap

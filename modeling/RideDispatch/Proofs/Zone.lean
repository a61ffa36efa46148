import RideDispatch.Proofs.Table
import RideDispatch.Zone.Index

/-!
# Members of the index of zones

Which keys a zone map holds after `insert` and `erase`, and in which places, and which keys `nearest` can
give: only members that are eligible (`mem_nearest`), and all of them if they are few (`mem_nearest_of_few`).
-/

namespace RideDispatch.ZoneMap

variable {κ : Type} [Ord κ] [Std.TransOrd κ]
variable {m : ZoneMap κ} {key k : κ} {place : Place} {eligible : κ → Bool}

lemma nodup_keys : m.keys.Nodup :=
  Std.ExtTreeMap.nodup_keys

lemma contains_empty {resolution : Resolution} : (empty resolution : ZoneMap κ).contains k = false :=
  Std.ExtTreeMap.contains_empty

lemma resolution_erase : (m.erase key).resolution = m.resolution := by
  unfold erase
  split <;> rfl

lemma eligible_of_mem_within {origin : Globe.Cell} {radius : Nat}
    (h : k ∈ m.within eligible origin radius) : eligible k = true := by
  unfold within at h
  obtain ⟨bucket, _, found⟩ := List.mem_flatMap.mp h
  split at found
  · exact (List.mem_filter.mp found).2
  · cases found

lemma eligible_of_mem_candidates {origin : Globe.Cell} {limit : Nat}
    (h : k ∈ m.candidates eligible origin limit) : eligible k = true := by
  unfold candidates at h
  split at h
  · exact eligible_of_mem_within h
  · exact (List.mem_filter.mp h).2

lemma mem_rank {coord : Coordinate} {keys : List κ} {limit : Nat}
    (h : k ∈ m.rank coord keys limit) : k ∈ keys ∧ m.contains k = true := by
  unfold rank at h
  obtain ⟨⟨d, k'⟩, member, rfl⟩ := List.mem_map.mp h
  have ranked := List.mem_mergeSort.mp (List.mem_of_mem_take member)
  obtain ⟨key, found, e⟩ := List.mem_filterMap.mp ranked
  obtain ⟨place, placed, pair⟩ := Option.map_eq_some_iff.mp e
  cases pair
  refine ⟨found, ?_⟩
  unfold place? at placed
  obtain ⟨entry, here, _⟩ := Option.map_eq_some_iff.mp placed
  simp [contains, Table.contains_eq_isSome, here]

lemma contains_eq_isSome_place? : m.contains k = (m.place? k).isSome := by
  unfold contains place?
  rw [Table.contains_eq_isSome, Option.isSome_map]

lemma contains_of_place? (found : m.place? k = some place) : m.contains k = true := by
  rw [contains_eq_isSome_place?, found]
  rfl

variable [Std.LawfulEqOrd κ]

lemma mem_keys : k ∈ m.keys ↔ m.contains k = true :=
  Std.ExtTreeMap.mem_keys

/-- What is near is an eligible member. -/
lemma mem_nearest {coord : Coordinate} {limit : Nat} (h : k ∈ m.nearest coord limit eligible) :
    m.contains k = true ∧ eligible k = true := by
  unfold nearest at h
  simp only at h
  split at h
  · obtain ⟨member, chosen⟩ := List.mem_filter.mp h
    exact ⟨mem_keys.mp member, chosen⟩
  · obtain ⟨candidate, member⟩ := mem_rank h
    exact ⟨member, eligible_of_mem_candidates candidate⟩

/-- If there are no more eligible members than are asked for, all of them are near. -/
lemma mem_nearest_of_few {coord : Coordinate} {limit : Nat}
    (few : (m.keys.filter eligible).length ≤ limit) :
    k ∈ m.nearest coord limit eligible ↔ m.contains k = true ∧ eligible k = true := by
  unfold nearest
  simp only
  rw [if_pos few, List.mem_filter, mem_keys]

variable [DecidableEq κ]

lemma contains_insert :
    (m.insert key place).contains k = (decide (key = k) || m.contains k) :=
  Table.contains_insert

lemma contains_erase : (m.erase key).contains k = (!decide (key = k) && m.contains k) := by
  unfold erase
  split
  · rename_i absent
    by_cases e : key = k
    · subst e
      simp [contains, Table.contains_eq_isSome, absent]
    · simp [e]
  · exact Table.contains_erase

lemma members_insert : (m.insert key place).members[k]? =
    if key = k then some ⟨Globe.cellOf m.resolution place.coord, place⟩ else m.members[k]? :=
  Table.getElem?_insert

lemma members_erase : (m.erase key).members[k]? = if key = k then none else m.members[k]? := by
  unfold erase
  split
  · rename_i absent
    split
    · rename_i same
      rw [← same, absent]
    · rfl
  · exact Table.getElem?_erase

lemma place?_insert : (m.insert key place).place? k = if key = k then some place else m.place? k := by
  unfold place?
  rw [members_insert]
  split <;> rfl

lemma place?_erase : (m.erase key).place? k = if key = k then none else m.place? k := by
  unfold place?
  rw [members_erase]
  split <;> rfl

end RideDispatch.ZoneMap

import RideDispatch.Proofs.Tidy

/-!
# The buckets of a zone map

A zone map is kept twice, as a table of its members and as a bucket of keys for each cell, and `insert` and
`erase` edit the two one after the other. Whatever comes, moves and goes, the two agree with one another and with
the last thing that was said about each key (`whereabouts`): what one change keeps (`Kept.change`) holds after any
number of changes (`kept_reached`). So each member stands once in the bucket of the cell of its present place and
in no other bucket, a bucket lists members only, and no bucket is left empty (`buckets_reached`).
-/

namespace RideDispatch.ZoneMap

/-! ## Buckets that are not empty -/

section Occupied

variable {κ : Type} {buckets : Std.ExtTreeMap Globe.Cell (List κ)} {key : κ} {cell : Globe.Cell}

/-- No bucket is empty. -/
def Occupied (buckets : Std.ExtTreeMap Globe.Cell (List κ)) : Prop := ∀ cell : Globe.Cell, buckets[cell]? ≠ some []

lemma Occupied.attach (h : Occupied buckets) : Occupied (attach buckets key cell) := by
  intro c
  unfold ZoneMap.attach
  rw [Table.getElem?_insert]
  split
  · intro empty
    exact List.append_ne_nil_of_right_ne_nil _ (List.cons_ne_nil _ _) (Option.some.inj empty)
  · exact h c

/-- A bucket that loses its last key goes, too. -/
lemma Occupied.detach [Ord κ] (h : Occupied buckets) : Occupied (detach buckets key cell) := by
  intro c
  unfold ZoneMap.detach
  split
  · exact h c
  · simp only
    split
    · rw [Table.getElem?_erase]
      split
      · exact nofun
      · exact h c
    · rename_i others
      rw [Table.getElem?_insert]
      split
      · intro empty
        exact others (List.isEmpty_iff.mpr (Option.some.inj empty))
      · exact h c

end Occupied

/-! ## What is kept -/

section Kept

variable {κ : Type} [Ord κ] [Std.TransOrd κ] {m : ZoneMap κ} {resolution : Resolution} {placeOf : κ → Option Place}
variable {key : κ} {place : Place} {cell : Globe.Cell}

lemma Occupied.insert (h : Occupied m.buckets) : Occupied (m.insert key place).buckets := by
  unfold ZoneMap.insert
  simp only
  split
  · exact h.attach
  · split
    · exact h
    · exact h.detach.attach

lemma Occupied.erase (h : Occupied m.buckets) : Occupied (m.erase key).buckets := by
  unfold ZoneMap.erase
  split
  · exact h
  · exact h.detach

/-- A map whose members are in the given places, each of them listed in the bucket of its cell, with no bucket
empty. -/
structure Kept (m : ZoneMap κ) (resolution : Resolution) (placeOf : κ → Option Place) : Prop where
  filed : m.Filed resolution
  place_eq : m.place? = placeOf
  occupied : Occupied m.buckets

lemma Kept.empty : (ZoneMap.empty resolution : ZoneMap κ).Kept resolution fun _ => none where
  filed := .empty
  place_eq := by
    funext k
    unfold place?
    simp [ZoneMap.empty]
  occupied cell := by simp [ZoneMap.empty]

variable [DecidableEq κ]

/-- A bucket lists a key once if the key is in its cell, and not at all if it is elsewhere. -/
lemma Kept.count_eq (h : m.Kept resolution placeOf) (here : placeOf key = some place) :
    (keysIn m.buckets cell).count key = if Globe.cellOf resolution place.coord = cell then 1 else 0 := by
  have listed : key ∈ keysIn m.buckets cell ↔ Globe.cellOf resolution place.coord = cell := by
    rw [h.filed.tidy.mem_iff, h.filed.cell_eq, h.place_eq, here, Option.map_some, Option.some.injEq]
  split
  · rename_i inside
    exact List.count_eq_one_of_mem (h.filed.tidy.nodup cell) (listed.mpr inside)
  · rename_i outside
    exact List.count_eq_zero_of_not_mem fun member => outside (listed.mp member)

/-- Where the keys are after a change, if they were in the given places before. -/
def moved (placeOf : κ → Option Place) : Change κ → κ → Option Place
  | .insert key place => Function.update placeOf key (some place)
  | .erase key => Function.update placeOf key none

/-- Where the keys are after some changes: in the place that was said last. -/
def whereabouts (changes : List (Change κ)) : κ → Option Place := changes.foldl moved fun _ => none

variable [Std.LawfulEqOrd κ]

/-- One change, whether a member comes, moves within its cell or to another one, or goes. -/
lemma Kept.change (h : m.Kept resolution placeOf) (c : Change κ) :
    (m.change c).Kept resolution (moved placeOf c) := by
  cases c with
  | insert key place =>
    refine ⟨h.filed.insert key place, ?_, h.occupied.insert⟩
    funext k
    show (m.insert key place).place? k = Function.update placeOf key (some place) k
    rw [place?_insert, h.place_eq, Function.update_apply]
    exact if_congr eq_comm rfl rfl
  | erase key =>
    refine ⟨h.filed.erase key, ?_, h.occupied.erase⟩
    funext k
    show (m.erase key).place? k = Function.update placeOf key none k
    rw [place?_erase, h.place_eq, Function.update_apply]
    exact if_congr eq_comm rfl rfl

/-- Any number of changes. -/
lemma kept_reached (resolution : Resolution) (changes : List (Change κ)) :
    (reached resolution changes).Kept resolution (whereabouts changes) := by
  have run : ∀ (m : ZoneMap κ) (placeOf : κ → Option Place), m.Kept resolution placeOf →
      (changes.foldl ZoneMap.change m).Kept resolution (changes.foldl moved placeOf) := by
    induction changes with
    | nil => exact fun _ _ h => h
    | cons first rest ih => exact fun _ _ h => ih _ _ (h.change first)
  exact run _ _ .empty

/-- Whatever has come, moved or gone: the members are in the places that were said last and in the cells of those
places. Each of them stands in the bucket of its cell, once, and in no other bucket. A bucket lists members only,
and one at least. -/
theorem buckets_reached (resolution : Resolution) (changes : List (Change κ)) :
    let m := reached resolution changes
    (∀ key, m.members[key]? =
      (whereabouts changes key).map fun place => ⟨Globe.cellOf resolution place.coord, place⟩) ∧
    (∀ key place, whereabouts changes key = some place → ∀ cell,
      (keysIn m.buckets cell).count key = if Globe.cellOf resolution place.coord = cell then 1 else 0) ∧
    ∀ (cell : Globe.Cell) (bucket : List κ), m.buckets[cell]? = some bucket →
      bucket ≠ [] ∧ ∀ key ∈ bucket, m.contains key = true := by
  intro m
  have kept : m.Kept resolution (whereabouts changes) := kept_reached resolution changes
  refine ⟨fun key => ?_, fun key place here cell => kept.count_eq here, fun cell bucket found => ⟨?_, ?_⟩⟩
  · rw [kept.filed.members_eq, kept.place_eq]
  · rintro rfl
    exact kept.occupied cell found
  · intro key member
    have listed : key ∈ keysIn m.buckets cell := by
      rw [keysIn, found]
      exact member
    obtain ⟨place, here, _⟩ := kept.filed.mem_keysIn.mp listed
    exact contains_of_place? here

/-- A vehicle that comes, stays, moves and is joined in its new place by a vehicle that goes again. -/
def wanderings : List (Change VehicleId) :=
  [.insert ⟨1⟩ (.onDiagonal 5), .insert ⟨1⟩ (.onDiagonal 5), .insert ⟨1⟩ (.onDiagonal 3),
    .insert ⟨2⟩ (.onDiagonal 3), .erase ⟨2⟩]

theorem buckets_reached_wanderings :
    let m := reached 9 wanderings
    let own := Globe.cellOf 9 (Place.onDiagonal 3).coord
    (keysIn m.buckets own).count ⟨1⟩ = 1 ∧ (∀ cell ≠ own, (keysIn m.buckets cell).count ⟨1⟩ = 0) ∧
      m.members[(⟨2⟩ : VehicleId)]? = none := by
  obtain ⟨members, once, _⟩ := buckets_reached 9 wanderings
  refine ⟨?_, fun cell other => ?_, ?_⟩
  · rw [once ⟨1⟩ (.onDiagonal 3) rfl, if_pos rfl]
  · rw [once ⟨1⟩ (.onDiagonal 3) rfl, if_neg other.symm]
  · rw [members ⟨2⟩]
    rfl

end Kept

end RideDispatch.ZoneMap

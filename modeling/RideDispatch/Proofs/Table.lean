import Mathlib.Data.List.Basic
import Mathlib.Tactic.Lemma
import Std.Data.DTreeMap.Internal.WF.Lemmas
import Std.Data.ExtTreeMap.Lemmas

/-!
# Tables

The queue, the registry, the index of zones and the fleet are tables ordered by their keys. Where
keys that compare equal are equal, an entry after `insert`, `erase` or `modify` is the new one at
the key and the old one elsewhere (`getElem?_insert`, `getElem?_erase`, `getElem?_modify`), and the
values of a table are what its entries hold (`mem_values`).
-/

namespace RideDispatch.Table

variable {κ β : Type} [Ord κ] [Std.TransOrd κ] {t : Std.ExtTreeMap κ β}

lemma contains_eq_isSome {k : κ} : t.contains k = t[k]?.isSome :=
  Std.ExtTreeMap.contains_eq_isSome_getElem?

/-- The values of a table are those of its entries, in the order of the keys. -/
lemma values_eq_map_toList : t.values = t.toList.map Prod.snd := by
  obtain ⟨⟨q⟩⟩ := t
  induction q using Quotient.inductionOn with
  | h m =>
    show m.inner.values = (Std.DTreeMap.Internal.Impl.Const.toList m.inner).map Prod.snd
    rw [Std.DTreeMap.Internal.Impl.values_eq_map_snd,
      Std.DTreeMap.Internal.Impl.Const.toList_eq_toListModel_map]
    simp [Function.comp_def]

variable [Std.LawfulEqOrd κ]

lemma mem_values {v : β} : v ∈ t.values ↔ ∃ k : κ, t[k]? = some v := by
  rw [values_eq_map_toList]
  constructor
  · intro h
    obtain ⟨⟨k, w⟩, member, rfl⟩ := List.mem_map.mp h
    exact ⟨k, Std.ExtTreeMap.mem_toList_iff_getElem?_eq_some.mp member⟩
  · rintro ⟨k, h⟩
    exact List.mem_map.mpr ⟨(k, v), Std.ExtTreeMap.mem_toList_iff_getElem?_eq_some.mpr h, rfl⟩

/-- Tables with entries at the same keys list the same keys. -/
lemma keys_congr {γ : Type} {t' : Std.ExtTreeMap κ γ} (same : ∀ k : κ, t'[k]?.isSome = t[k]?.isSome) :
    t'.keys = t.keys := by
  have flag {ε : Type} (o : Option ε) : (o.map fun _ => ()) = if o.isSome then some () else none := by
    cases o <;> rfl
  have blank : t'.map (fun _ _ => ()) = t.map fun _ _ => () := by
    apply Std.ExtTreeMap.ext_getElem?
    intro k
    rw [Std.ExtTreeMap.getElem?_map, Std.ExtTreeMap.getElem?_map, flag, flag, same]
  calc
    t'.keys = (t'.map fun _ _ => ()).keys := Std.ExtTreeMap.keys_map.symm
    _ = (t.map fun _ _ => ()).keys := by rw [blank]
    _ = t.keys := Std.ExtTreeMap.keys_map

variable [DecidableEq κ]

lemma getElem?_insert {k a : κ} {v : β} :
    (t.insert k v)[a]? = if k = a then some v else t[a]? := by
  rw [Std.ExtTreeMap.getElem?_insert]
  simp only [Std.compare_eq_iff_eq]

lemma insert_insert {k : κ} {v v' : β} : (t.insert k v).insert k v' = t.insert k v' := by
  apply Std.ExtTreeMap.ext_getElem?
  intro a
  simp only [getElem?_insert]
  split <;> rfl

/-- It does not matter in which order two entries are made. -/
lemma insert_comm {k k' : κ} {v v' : β} (ne : k ≠ k') :
    (t.insert k v).insert k' v' = (t.insert k' v').insert k v := by
  apply Std.ExtTreeMap.ext_getElem?
  intro a
  simp only [getElem?_insert]
  by_cases here : k = a
  · rw [if_pos here, if_pos here, if_neg fun there => ne (here.trans there.symm)]
  · rw [if_neg here, if_neg here]

lemma getElem?_erase {k a : κ} : (t.erase k)[a]? = if k = a then none else t[a]? := by
  rw [Std.ExtTreeMap.getElem?_erase]
  simp only [Std.compare_eq_iff_eq]

lemma getElem?_modify {k a : κ} {f : β → β} :
    (t.modify k f)[a]? = if k = a then t[a]?.map f else t[a]? := by
  rw [Std.ExtTreeMap.getElem?_modify]
  simp only [Std.compare_eq_iff_eq]
  by_cases h : k = a
  · subst h; rfl
  · simp only [if_neg h]

lemma contains_insert {k a : κ} {v : β} :
    (t.insert k v).contains a = (decide (k = a) || t.contains a) := by
  rw [contains_eq_isSome, contains_eq_isSome, getElem?_insert]
  split <;> simp [*]

lemma contains_erase {k a : κ} :
    (t.erase k).contains a = (!decide (k = a) && t.contains a) := by
  rw [contains_eq_isSome, contains_eq_isSome, getElem?_erase]
  split <;> simp [*]

end RideDispatch.Table

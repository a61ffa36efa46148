import Mathlib.Tactic.Lemma

/-!
# Outcomes

A computation that may fail goes well if all its parts go well (`bind_eq_ok`, `map_eq_ok`). What each step of a fold
says about one more entry, a fold that goes well says about all of them (`foldlM_builds`); and if each step goes
well, it comes to what a fold without failures comes to (`foldlM_eq_foldl`).
-/

namespace RideDispatch

variable {ε α β : Type}

lemma bind_eq_ok {x : Except ε α} {f : α → Except ε β} {b : β} (h : x >>= f = .ok b) :
    ∃ a, x = .ok a ∧ f a = .ok b := by
  cases x with
  | error => cases h
  | ok a => exact ⟨a, rfl, h⟩

lemma map_eq_ok {x : Except ε α} {f : α → β} {b : β} (h : f <$> x = .ok b) : ∃ a, x = .ok a ∧ f a = b := by
  cases x with
  | error => cases h
  | ok a => exact ⟨a, rfl, Except.ok.inj h⟩

/-- What each step of a fold says about one more entry, the fold says about all. -/
lemma foldlM_builds {f : β → α → Except ε β} {P : List α → β → Prop}
    (builds : ∀ done b a b', P done b → f b a = .ok b' → P (done ++ [a]) b') {xs : List α}
    {b b' : β} (first : P [] b) (h : xs.foldlM f b = .ok b') : P xs b' := by
  have more : ∀ done b, P done b → xs.foldlM f b = .ok b' → P (done ++ xs) b' := by
    clear first h
    induction xs with
    | nil =>
      intro done b before h
      cases h
      rwa [List.append_nil]
    | cons a rest ih =>
      intro done b before h
      obtain ⟨next, step, later⟩ := bind_eq_ok h
      rw [List.append_cons]
      exact ih (done ++ [a]) next (builds done b a next before step) later
  exact more [] b first h

/-- A fold each of whose steps goes well, and says something about one more entry, comes to what a fold without
failures comes to, and says it about all. -/
lemma foldlM_eq_foldl {f : β → α → Except ε β} {g : β → α → β} {P : List α → β → Prop} {xs : List α}
    (goes : ∀ done a rest b, done ++ a :: rest = xs → P done b → f b a = .ok (g b a) ∧ P (done ++ [a]) (g b a))
    {b : β} (first : P [] b) : xs.foldlM f b = .ok (xs.foldl g b) ∧ P xs (xs.foldl g b) := by
  have more : ∀ rest done b, done ++ rest = xs → P done b →
      rest.foldlM f b = .ok (rest.foldl g b) ∧ P xs (rest.foldl g b) := by
    intro rest
    induction rest with
    | nil =>
      intro done b whole before
      rw [List.append_nil] at whole
      exact ⟨rfl, whole ▸ before⟩
    | cons a rest ih =>
      intro done b whole before
      obtain ⟨step, later⟩ := goes done a rest b whole before
      rw [List.append_cons] at whole
      rw [List.foldlM_cons, step]
      exact ih (done ++ [a]) (g b a) whole later
  exact more xs [] b rfl first

/-- What each step of a fold keeps, the fold keeps. -/
lemma foldlM_keeps {f : β → α → Except ε β} {P : β → Prop}
    (keeps : ∀ b a b', P b → f b a = .ok b' → P b') {xs : List α} {b b' : β} (first : P b)
    (h : xs.foldlM f b = .ok b') : P b' :=
  foldlM_builds (P := fun _ => P) (fun _ => keeps) first h

end RideDispatch

import Mathlib.Tactic.Lemma
import RideDispatch.Decimal.Word

/-!
# Numerals

A text denotes a number if it consists of decimal digits with the value of the number, after a plus sign or none
(`Decimal.Denotes`). The words that can be read are those that are denoted (`Decimal.word?_eq_some`), and every
number is denoted by its digits (`Decimal.denotes_toString`).
-/

namespace RideDispatch.Decimal

variable {text : String} {cs : List Char} {n : Nat}

/-- A text denotes a number in decimal digits, of which there is at least one. The first of them may be zeros, and a
plus sign may stand before them. -/
def Denotes (text : String) (n : Nat) : Prop :=
  ∃ digits, (text.toList = digits ∨ text.toList = '+' :: digits) ∧ digits ≠ [] ∧
    (∀ c ∈ digits, c.isDigit = true) ∧ Nat.ofDigitChars 10 digits 0 = n

/-- Digits stand for a number, and nothing else does. -/
lemma digits?_eq_some {acc : Nat} :
    digits? acc cs = some n ↔ (∀ c ∈ cs, c.isDigit = true) ∧ Nat.ofDigitChars 10 cs acc = n := by
  induction cs generalizing acc with
  | nil => simp only [digits?, Option.some.injEq, List.not_mem_nil, false_implies, implies_true,
      Nat.ofDigitChars_nil, true_and]
  | cons c rest ih =>
    simp only [digits?, List.forall_mem_cons, Nat.ofDigitChars_cons, Nat.mul_comm 10]
    by_cases digit : c.isDigit = true
    · rw [if_pos digit, ih]
      simp only [digit, true_and]
    · rw [if_neg digit]
      simp only [digit, reduceCtorEq, false_and]

lemma fits_iff {w : UInt64} : (if n < UInt64.size then some n.toUInt64 else none) = some w ↔ n = w.toNat := by
  constructor
  · intro h
    obtain ⟨fits, same⟩ := Option.ite_none_right_eq_some.mp h
    rw [← Option.some.inj same]
    exact (UInt64.toNat_ofNat_of_lt fits).symm
  · rintro rfl
    rw [if_pos w.toNat_lt]
    exact congrArg some UInt64.ofNat_toNat

/-- The words that can be read are those that are denoted. -/
lemma word?_eq_some {w : UInt64} : word? text = some w ↔ Denotes text w.toNat := by
  have value (cs : List Char) (read : Option UInt64) (nothing : digits? 0 cs = none → read = none)
      (found : ∀ n, digits? 0 cs = some n → read = if n < UInt64.size then some n.toUInt64 else none) :
      (if cs = [] then none else read) = some w ↔
      cs ≠ [] ∧ (∀ c ∈ cs, c.isDigit = true) ∧ Nat.ofDigitChars 10 cs 0 = w.toNat := by
    rw [Option.ite_none_left_eq_some, ← digits?_eq_some]
    refine and_congr_right fun _ => ?_
    cases digits : digits? 0 cs with
    | none =>
      rw [nothing digits]
      exact iff_of_false (Option.some_ne_none _).symm (Option.some_ne_none _).symm
    | some n => rw [found n digits, fits_iff, Option.some.injEq]
  unfold word? Denotes
  split
  · rename_i rest sign
    rw [sign]
    refine (value rest _ (fun e => by rw [e]) (fun n e => by rw [e])).trans ⟨fun h => ⟨rest, .inr rfl, h⟩, ?_⟩
    rintro ⟨digits, same | same, nonempty, all, sum⟩
    · -- A sign is no digit.
      exact absurd (all '+' (same ▸ List.mem_cons_self)) (by decide)
    · obtain rfl := (List.cons.inj same).2
      exact ⟨nonempty, all, sum⟩
  · rename_i cs unsigned
    refine (value text.toList _ (fun e => by rw [e]) (fun n e => by rw [e])).trans
      ⟨fun h => ⟨text.toList, .inl rfl, h⟩, ?_⟩
    rintro ⟨digits, same | same, h⟩
    · exact same ▸ h
    · exact absurd same (unsigned digits)

lemma denotes_toString (n : Nat) : Denotes (toString n) n := by
  refine ⟨Nat.toDigits 10 n, .inl Nat.toList_repr, Nat.toDigits_ne_nil, ?_, Nat.ofDigitChars_ten_toDigits⟩
  exact fun c member => Nat.isDigit_of_mem_toDigits (by decide) (by decide) member

end RideDispatch.Decimal

import RideDispatch.Time

/-!
# Unguarded arithmetic

Most sums and products of times stop at `Time.never`. Where one is computed on bare words, it depends on how the
program has been built what becomes of a result that is too great for a word: `Arithmetic.word?` takes the
choice as a parameter. The program that runs here is the checked one; what a function computes on bare words it
computes with checks unless it is asked for the other reading.
-/

namespace RideDispatch

/-- What a program does where the result of bare arithmetic does not fit in a word. -/
inductive Arithmetic where
  /-- It stops. -/
  | checked
  /-- It goes on with what is left of the result in the word. -/
  | wrapping
deriving DecidableEq, Repr

/-- The word that bare arithmetic gives for a result, if the program does not stop. -/
def Arithmetic.word? : Arithmetic → Nat → Option UInt64
  | checked, n => if n < UInt64.size then some n.toUInt64 else none
  | wrapping, n => some n.toUInt64

/-- A number of whole seconds as a time, by a bare product. -/
def Time.bareSecs? (s : UInt64) (mode : Arithmetic := .checked) : Option Time :=
  (mode.word? (s.toNat * 1000)).map Time.mk

namespace Arithmetic

variable {mode : Arithmetic} {n : Nat}

theorem word?_of_lt (h : n < UInt64.size) : mode.word? n = some n.toUInt64 := by
  cases mode with
  | checked => exact if_pos h
  | wrapping => rfl

theorem checked_word?_of_le (h : UInt64.size ≤ n) : checked.word? n = none := if_neg (Nat.not_lt.mpr h)

/-- A product with a count that is bare, too, comes out as if the count were a number of any size: where the
count does not fit, neither does the product. -/
theorem word?_product {count width : Nat} (few : count ≤ UInt64.size) (pos : 0 < width) :
    ((mode.word? count).bind fun c => mode.word? (c.toNat * width)) = mode.word? (count * width) := by
  rcases Nat.lt_or_eq_of_le few with fits | rfl
  · have same : count.toUInt64.toNat = count := UInt64.toNat_ofNat_of_lt fits
    rw [word?_of_lt fits, Option.bind_some, same]
  · have more : UInt64.size ≤ UInt64.size * width := Nat.le_mul_of_pos_right _ pos
    cases mode with
    | checked => rw [checked_word?_of_le (Nat.le_refl _), checked_word?_of_le more, Option.bind_none]
    | wrapping =>
      have nothing : (UInt64.size * width).toUInt64 = 0 := by
        apply UInt64.toNat_inj.mp
        simp
      show some _ = some _
      rw [nothing]
      simp

end Arithmetic

end RideDispatch

import RideDispatch.Decimal.Shortest

/-!
# Decimals with a fixed number of places

`roundedQuotient` rounds a quotient of natural numbers to a whole number, a half to the even
neighbour; `renderFixed` writes a double with that rounding after a number of places.
-/

namespace RideDispatch.Decimal

/-- The whole number nearest to `num / den`; a half goes to the even neighbour. -/
def roundedQuotient (num den : Nat) : Nat :=
  let down := num / den
  let rest := num % den
  if 2 * rest < den then down
  else if 2 * rest = den then down + down % 2
  else down + 1

/-- A count of units of the last of `places` decimal places, written with a point. -/
def renderPlaces (units places : Nat) : String :=
  let whole := toString (units / Nat.pow 10 places)
  if places = 0 then whole
  else
    let rest := toString (units % Nat.pow 10 places)
    whole ++ "." ++ String.ofList (List.replicate (places - rest.length) '0') ++ rest

/-- The text of a double with exactly `places` decimal places. -/
def renderFixed (x : Float) (places : Nat) : String :=
  match Binary.ofFloat? x with
  | some b =>
    let units := roundedQuotient ((b.mantissa <<< b.exponent.toNat) * Nat.pow 10 places)
      (1 <<< (-b.exponent).toNat)
    (if isNegative x then "-" else "") ++ renderPlaces units places
  | none => render x

/-- The rounded quotient is within half a unit of the quotient. -/
theorem roundedQuotient_close {num den : Nat} (h : 0 < den) :
    2 * (roundedQuotient num den * den) ≤ 2 * num + den ∧
      2 * num ≤ 2 * (roundedQuotient num den * den) + den := by
  have hd : den * (num / den) + num % den = num := Nat.div_add_mod num den
  have hr : num % den < den := Nat.mod_lt _ h
  have hm : num / den * den = den * (num / den) := Nat.mul_comm _ _
  simp only [roundedQuotient]
  split
  next hlt => omega
  next hge =>
    split
    next heq =>
      rcases Nat.mod_two_eq_zero_or_one (num / den) with hp | hp
      · simp only [hp, Nat.add_zero]; omega
      · simp only [hp, Nat.add_mul, Nat.one_mul]; omega
    next hne =>
      simp only [Nat.add_mul, Nat.one_mul]; omega

end RideDispatch.Decimal

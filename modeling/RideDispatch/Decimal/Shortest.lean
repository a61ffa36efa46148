/-!
# The shortest decimal of a binary fraction

`Binary.ofFloat?` takes a finite double apart into a sign and `m · 2 ^ q`. Every real in
an interval around it rounds to it, and `Binary.shortest` is the decimal with the fewest digits in
that interval, of those the nearest to the value, and of two that are equally near the greater.
`render` writes it with plain digits only, never with an exponent.
-/

namespace RideDispatch.Decimal

/-- A positive binary fraction `mantissa * 2 ^ exponent` of a double. -/
structure Binary where
  mantissa : Nat
  exponent : Int
deriving DecidableEq, Repr

/-- The sign bit of a double. -/
def isNegative (x : Float) : Bool := x.toBits >>> 63 == 1

/-- The leading bit of a mantissa of full length, two to the power of 52. -/
def leadingBit : Nat := 4503599627370496

/-- The magnitude of a finite double, or `none` for infinities and what is not a number. -/
def Binary.ofFloat? (x : Float) : Option Binary :=
  let bits : Nat := x.toBits.toNat
  let fraction : Nat := bits % leadingBit
  let biased : Nat := bits / leadingBit % 2048
  if biased = 2047 then none
  else if biased = 0 then some ⟨fraction, -1074⟩
  else some ⟨fraction + leadingBit, (biased : Int) - 1075⟩

/-- A decimal `digits * 10 ^ exponent`. -/
structure Scaled where
  digits : Nat
  exponent : Int
deriving DecidableEq, Repr

namespace Binary

/-- The value, its distance to the next double below and to the next above, as natural numbers
over one denominator. The distance below halves at a power of two. -/
def scaled (b : Binary) : Nat × Nat × Nat × Nat :=
  let up := 1 <<< b.exponent.toNat
  let den := 1 <<< (-b.exponent).toNat
  let atPower := b.mantissa = leadingBit ∧ b.exponent ≠ -1074
  let value := b.mantissa * up
  if atPower then (2 * value, up, 2 * up, 2 * den) else (value, up, up, den)

/-- The decimal of a given power of ten next to the value, if it rounds back to the value. -/
def candidate? (b : Binary) (power : Int) : Option Scaled :=
  let (value, below, above, den) := b.scaled
  let num := value * Nat.pow 10 (-power).toNat
  let unit := den * Nat.pow 10 power.toNat
  let grain := Nat.pow 10 (-power).toNat
  let inside (d : Nat) : Bool :=
    let point := 2 * d * unit
    let low := 2 * num - below * grain
    let high := 2 * num + above * grain
    if b.mantissa % 2 = 0 then low ≤ point && point ≤ high else low < point && point < high
  let down := num / unit
  let up := down + 1
  let restDown := num - down * unit
  let restUp := up * unit - num
  let nearest := if restDown < restUp then down else up
  let other := if nearest = down then up else down
  if inside nearest then some ⟨nearest, power⟩
  else if inside other then some ⟨other, power⟩
  else none

/-- The candidate of the greatest power of ten from `power` downwards. -/
def search (b : Binary) : Nat → Int → Option Scaled
  | 0, _ => none
  | fuel + 1, power =>
    match b.candidate? power with
    | some s => if s.digits = 0 then b.search fuel (power - 1) else some s
    | none => b.search fuel (power - 1)

/-- The decimal with the fewest digits that rounds to the value. Seventeen digits always do, and
no double reaches the three hundred and tenth power of ten. -/
def shortest (b : Binary) : Scaled :=
  if b.mantissa = 0 then ⟨0, 0⟩
  else (b.search 660 310).getD ⟨0, 0⟩

end Binary

/-- The decimal written with digits and at most one point. -/
def Scaled.render (s : Scaled) : String :=
  if 0 ≤ s.exponent then toString (s.digits * Nat.pow 10 s.exponent.toNat)
  else
    let places := (-s.exponent).toNat
    let whole := s.digits / Nat.pow 10 places
    let rest := toString (s.digits % Nat.pow 10 places)
    toString whole ++ "." ++ String.ofList (List.replicate (places - rest.length) '0') ++ rest

/-- The text of a double: the fewest digits that read back, without an exponent. -/
def render (x : Float) : String :=
  match Binary.ofFloat? x with
  | some b => (if isNegative x then "-" else "") ++ b.shortest.render
  | none => if x.isNaN then "NaN" else if isNegative x then "-inf" else "inf"

end RideDispatch.Decimal

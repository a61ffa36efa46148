/-!
# Words in decimal

`word?` reads a 64-bit word from decimal digits, after a plus sign or none. Leading zeros are
allowed, and so is every number that fits.
-/

namespace RideDispatch.Decimal

/-- The number that a list of decimal digits stands for, or `none` for any other character. -/
def digits? (acc : Nat) : List Char → Option Nat
  | [] => some acc
  | c :: rest => if c.isDigit then digits? (acc * 10 + (c.toNat - '0'.toNat)) rest else none

/-- The 64-bit word that a text stands for. -/
def word? (text : String) : Option UInt64 :=
  let digits := match text.toList with
    | '+' :: rest => rest
    | cs => cs
  if digits = [] then none
  else
    match digits? 0 digits with
    | some n => if n < UInt64.size then some n.toUInt64 else none
    | none => none

end RideDispatch.Decimal

/-!
# JSON values

A JSON document is a tree of values. Numbers are whole numbers or doubles; an object is the list
of its entries in the order of the text, so a reader of records can decide what a repeated name
means. `Json.lookup?` takes the last entry of a name.
-/

namespace RideDispatch

/-- A JSON number: whole where the text is a whole number in the range of 64-bit words. -/
inductive Json.Number where
  | integer (value : Int)
  | real (value : Float)
deriving Repr

/-- A JSON value. -/
inductive Json where
  | null
  | bool (value : Bool)
  | num (value : Json.Number)
  | str (value : String)
  | arr (items : List Json)
  | obj (entries : List (String × Json))
deriving Repr, Inhabited

namespace Json

/-- The value of the last entry with the given name. -/
def lookup? {α : Type} (entries : List (String × α)) (name : String) : Option α :=
  (entries.reverse.find? fun entry => entry.1 == name).map (·.2)

/-- The entries that remain when a later entry replaces an earlier one of the same name. -/
def lastEntries {α : Type} : List (String × α) → List (String × α)
  | [] => []
  | entry :: rest =>
    if rest.any fun other => other.1 == entry.1 then lastEntries rest
    else entry :: lastEntries rest

/-- The value as a 64-bit word. -/
def word? : Json → Option UInt64
  | num (.integer n) => if 0 ≤ n ∧ n < UInt64.size then some n.toNat.toUInt64 else none
  | _ => none

/-- The value as a byte. -/
def byte? : Json → Option UInt8
  | num (.integer n) => if 0 ≤ n ∧ n < 256 then some n.toNat.toUInt8 else none
  | _ => none

/-- The value as a double; whole numbers are rounded to the nearest one. -/
def double? : Json → Option Float
  | num (.integer n) =>
    some (if 0 ≤ n then n.toNat.toUInt64.toFloat else -(-n).toNat.toUInt64.toFloat)
  | num (.real x) => some x
  | _ => none

/-- The value as a truth value. -/
def bool? : Json → Option Bool
  | bool b => some b
  | _ => none

/-- The value as a text. -/
def text? : Json → Option String
  | str s => some s
  | _ => none

/-- The name that stands for a case without contents: a text, or an object whose only entry has
that name and the value null. -/
def caseName? : Json → Option String
  | str s => some s
  | obj [(name, null)] => some name
  | _ => none

/-- A 64-bit word as a number. -/
def ofWord (n : UInt64) : Json := num (.integer n.toNat)

/-- A natural number as a number. -/
def ofNat (n : Nat) : Json := num (.integer n)

end Json

end RideDispatch

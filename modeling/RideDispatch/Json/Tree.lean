import RideDispatch.Json

/-!
# Parse trees of JSON text

`Json.Tree.parse?` reads a whole text into a tree that still holds numerals and strings as they
are written. `Json.Tree.value?` gives the value a tree stands for; it fails for a numeral beyond
the range of doubles, for half of a surrogate pair and for nesting deeper than `maxDepth`. A
reader that skips part of a document skips trees, whether or not they have a value.
-/

namespace RideDispatch.Json

/-- What a string literal is made of: characters, and 16-bit units written in hexadecimal. -/
inductive Glyph where
  | char (c : Char)
  | unit (code : Nat)
deriving DecidableEq, Repr

/-- A number as it is written. -/
structure Numeral where
  negative : Bool
  /-- The digits before the point. -/
  whole : List Char
  /-- The digits after the point, if there is one. -/
  fraction : Option (List Char)
  /-- Whether the exponent is negative, and its digits, if there is one. -/
  exponent : Option (Bool × List Char)
deriving DecidableEq, Repr

/-- A JSON text as it is written, without its blanks. -/
inductive Tree where
  | null
  | bool (value : Bool)
  | num (numeral : Numeral)
  | str (glyphs : List Glyph)
  | arr (items : List Tree)
  | obj (entries : List (List Glyph × Tree))
deriving Repr, Inhabited

/-! ## Numerals -/

namespace Numeral

/-- The value of a decimal digit. -/
def digitValue (c : Char) : Nat := c.toNat - '0'.toNat

/-- Takes digits into the significand as long as it fits in 64 bits; gives what is left over. -/
def takeDigits (significand : Nat) : List Char → Nat × List Char
  | [] => (significand, [])
  | c :: rest =>
    let next := significand * 10 + digitValue c
    if next < UInt64.size then takeDigits next rest else (significand, c :: rest)

/-- The double `significand * 10 ^ exponent`, rounded after each step, or `none` beyond the
greatest double. -/
def scale? (x : Float) (exponent : Int) : Option Float :=
  if exponent < -308 then
    if x == 0.0 then some x else scale? (x / 1e308) (exponent + 308)
  else if exponent < 0 then some (x / Float.ofScientific 1 false (-exponent).toNat)
  else if exponent ≤ 308 then
    let scaled := x * Float.ofScientific 1 false exponent.toNat
    if scaled.isInf then none else some scaled
  else if x == 0.0 then some x
  else none
termination_by exponent.natAbs
decreasing_by omega

/-- The greatest exponent that is read in full. -/
def maxExponent : Nat := 2147483647

/-- The value of an exponent's digits, or `none` beyond `maxExponent`. -/
def exponentValue? (digits : List Char) : Option Nat :=
  let n := digits.foldl (fun n c => n * 10 + digitValue c) 0
  if n ≤ maxExponent then some n else none

/-- The double with the given sign. -/
def signed (negative : Bool) (x : Float) : Float := if negative then -x else x

/-- The number a numeral stands for. Digits that no longer fit in 64 bits count as zeros. -/
def number? (n : Numeral) : Option Number :=
  let (head, overflow) := takeDigits 0 n.whole
  let (significand, dropped) := takeDigits head (n.fraction.getD [])
  let places := (n.fraction.getD []).length - dropped.length
  let shift : Int := (overflow.length : Int) - (places : Int)
  let real (exponent : Int) : Option Number :=
    (scale? significand.toUInt64.toFloat exponent).map fun x => .real (signed n.negative x)
  match n.fraction, n.exponent with
  | none, none =>
    if overflow ≠ [] then real shift
    else if !n.negative then some (.integer significand)
    else if significand = 0 ∨ 9223372036854775808 < significand then
      some (.real (-significand.toUInt64.toFloat))
    else some (.integer (-significand))
  | _, none => real shift
  | _, some (false, digits) =>
    match exponentValue? digits with
    | some e => real (shift + e)
    | none => if significand = 0 then some (.real (signed n.negative 0.0)) else none
  | _, some (true, digits) =>
    match exponentValue? digits with
    | some e => real (shift - e)
    | none => some (.real (signed n.negative 0.0))

end Numeral

/-! ## Strings -/

/-- The text of a string literal: a pair of surrogate units is one character, and a surrogate
without its partner has no text. -/
def glyphText? : List Glyph → Option (List Char)
  | [] => some []
  | .char c :: rest => (glyphText? rest).map (c :: ·)
  | .unit a :: .unit b :: rest =>
    if 0xD800 ≤ a ∧ a < 0xDC00 then
      if 0xDC00 ≤ b ∧ b < 0xE000 then
        (glyphText? rest).map (Char.ofNat (0x10000 + (a - 0xD800) * 0x400 + (b - 0xDC00)) :: ·)
      else none
    else if 0xDC00 ≤ a ∧ a < 0xE000 then none
    else (glyphText? (.unit b :: rest)).map (Char.ofNat a :: ·)
  | .unit a :: rest =>
    if 0xD800 ≤ a ∧ a < 0xE000 then none else (glyphText? rest).map (Char.ofNat a :: ·)

namespace Tree

/-! ## Values -/

/-- The number of arrays and objects that may be nested. -/
def maxDepth : Nat := 127

mutual

/-- The value of a tree in which at most `depth` arrays and objects are nested. -/
def valueWithin? : Nat → Tree → Option Json
  | _, .null => some .null
  | _, .bool b => some (.bool b)
  | _, .num n => n.number?.map .num
  | _, .str s => (glyphText? s).map fun cs => .str (String.ofList cs)
  | 0, .arr _ => none
  | depth + 1, .arr items => (itemsWithin? depth items).map .arr
  | 0, .obj _ => none
  | depth + 1, .obj entries => (entriesWithin? depth entries).map .obj

/-- The values of the items of an array. -/
def itemsWithin? : Nat → List Tree → Option (List Json)
  | _, [] => some []
  | depth, item :: rest =>
    match valueWithin? depth item, itemsWithin? depth rest with
    | some v, some vs => some (v :: vs)
    | _, _ => none

/-- The entries of an object with their values. -/
def entriesWithin? : Nat → List (List Glyph × Tree) → Option (List (String × Json))
  | _, [] => some []
  | depth, (name, item) :: rest =>
    match glyphText? name, valueWithin? depth item, entriesWithin? depth rest with
    | some cs, some v, some vs => some ((String.ofList cs, v) :: vs)
    | _, _, _ => none

end

/-- The value a tree stands for. -/
def value? (t : Tree) : Option Json := valueWithin? maxDepth t

/-! ## Reading -/

/-- The blanks between the marks of a JSON text. -/
def isBlank (c : Char) : Bool := c = ' ' || c = '\n' || c = '\t' || c = '\r'

/-- The text after its leading blanks. -/
def skipBlanks (cs : List Char) : List Char := cs.dropWhile isBlank

/-- The value of a hexadecimal digit. -/
def hexValue? (c : Char) : Option Nat :=
  if '0' ≤ c ∧ c ≤ '9' then some (c.toNat - '0'.toNat)
  else if 'a' ≤ c ∧ c ≤ 'f' then some (c.toNat - 'a'.toNat + 10)
  else if 'A' ≤ c ∧ c ≤ 'F' then some (c.toNat - 'A'.toNat + 10)
  else none

/-- The character that a letter after a backslash stands for. -/
def escape? : Char → Option Char
  | '"' => some '"'
  | '\\' => some '\\'
  | '/' => some '/'
  | 'b' => some '\x08'
  | 'f' => some '\x0c'
  | 'n' => some '\n'
  | 'r' => some '\r'
  | 't' => some '\t'
  | _ => none

/-- Reads a string literal after its opening quote. -/
def readGlyphs : List Char → Option (List Glyph × List Char)
  | [] => none
  | '"' :: rest => some ([], rest)
  | '\\' :: 'u' :: a :: b :: c :: d :: rest =>
    match hexValue? a, hexValue? b, hexValue? c, hexValue? d, readGlyphs rest with
    | some a, some b, some c, some d, some (glyphs, rest) =>
      some (.unit (((a * 16 + b) * 16 + c) * 16 + d) :: glyphs, rest)
    | _, _, _, _, _ => none
  | '\\' :: c :: rest =>
    match escape? c, readGlyphs rest with
    | some c, some (glyphs, rest) => some (.char c :: glyphs, rest)
    | _, _ => none
  | c :: rest =>
    if c.toNat < 0x20 ∨ c = '\\' then none
    else (readGlyphs rest).map fun (glyphs, rest) => (.char c :: glyphs, rest)

/-- Reads a run of decimal digits. -/
def readDigits (cs : List Char) : List Char × List Char :=
  (cs.takeWhile Char.isDigit, cs.dropWhile Char.isDigit)

/-- Reads the digits after a decimal point, if a point follows. -/
def readFraction? : List Char → Option (Option (List Char) × List Char)
  | '.' :: rest =>
    match readDigits rest with
    | ([], _) => none
    | (digits, rest) => some (some digits, rest)
  | rest => some (none, rest)

/-- Reads the sign of an exponent. -/
def readExponentSign : List Char → Bool × List Char
  | '+' :: rest => (false, rest)
  | '-' :: rest => (true, rest)
  | rest => (false, rest)

/-- Reads an exponent, if one follows. -/
def readExponent? : List Char → Option (Option (Bool × List Char) × List Char)
  | [] => some (none, [])
  | c :: rest =>
    if c = 'e' ∨ c = 'E' then
      let (negative, rest) := readExponentSign rest
      match readDigits rest with
      | ([], _) => none
      | (digits, rest) => some (some (negative, digits), rest)
    else some (none, c :: rest)

/-- Reads a number: no sign but a minus, and no zero before another digit. -/
def readNumeral? (cs : List Char) : Option (Numeral × List Char) :=
  let (negative, cs) := match cs with
    | '-' :: rest => (true, rest)
    | cs => (false, cs)
  match readDigits cs with
  | ([], _) => none
  | ('0' :: _ :: _, _) => none
  | (whole, rest) =>
    match readFraction? rest with
    | none => none
    | some (fraction, rest) =>
      match readExponent? rest with
      | none => none
      | some (exponent, rest) => some (⟨negative, whole, fraction, exponent⟩, rest)

mutual

/-- Reads one value. The first argument bounds the number of marks that are read. -/
def readValue : Nat → List Char → Option (Tree × List Char)
  | 0, _ => none
  | fuel + 1, cs =>
    match skipBlanks cs with
    | '\x7b' :: rest =>
      match skipBlanks rest with
      | '\x7d' :: rest => some (.obj [], rest)
      | rest => (readEntries fuel rest).map fun (entries, rest) => (.obj entries, rest)
    | '[' :: rest =>
      match skipBlanks rest with
      | ']' :: rest => some (.arr [], rest)
      | rest => (readItems fuel rest).map fun (items, rest) => (.arr items, rest)
    | '"' :: rest => (readGlyphs rest).map fun (glyphs, rest) => (.str glyphs, rest)
    | 'n' :: 'u' :: 'l' :: 'l' :: rest => some (.null, rest)
    | 't' :: 'r' :: 'u' :: 'e' :: rest => some (.bool true, rest)
    | 'f' :: 'a' :: 'l' :: 's' :: 'e' :: rest => some (.bool false, rest)
    | rest => (readNumeral? rest).map fun (numeral, rest) => (.num numeral, rest)

/-- Reads the items of an array that has at least one, and its closing bracket. -/
def readItems : Nat → List Char → Option (List Tree × List Char)
  | 0, _ => none
  | fuel + 1, cs =>
    match readValue fuel cs with
    | none => none
    | some (item, rest) =>
      match skipBlanks rest with
      | ',' :: rest => (readItems fuel rest).map fun (items, rest) => (item :: items, rest)
      | ']' :: rest => some ([item], rest)
      | _ => none

/-- Reads the entries of an object that has at least one, and its closing brace. -/
def readEntries : Nat → List Char → Option (List (List Glyph × Tree) × List Char)
  | 0, _ => none
  | fuel + 1, cs =>
    match skipBlanks cs with
    | '"' :: rest =>
      match readGlyphs rest with
      | none => none
      | some (name, rest) =>
        match skipBlanks rest with
        | ':' :: rest =>
          match readValue fuel rest with
          | none => none
          | some (item, rest) =>
            match skipBlanks rest with
            | ',' :: rest =>
              (readEntries fuel rest).map fun (entries, rest) => ((name, item) :: entries, rest)
            | '\x7d' :: rest => some ([(name, item)], rest)
            | _ => none
        | _ => none
    | _ => none

end

/-- The tree of a whole text. Twice its length bounds the marks that it can hold. -/
def parse? (text : String) : Option Tree :=
  let cs := text.toList
  match readValue (2 * cs.length + 2) cs with
  | some (tree, rest) => if skipBlanks rest = [] then some tree else none
  | none => none

end Tree

/-- The value of a whole text. -/
def parse? (text : String) : Option Json := (Tree.parse? text).bind Tree.value?

end RideDispatch.Json

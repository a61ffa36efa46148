import RideDispatch.Decimal.Shortest
import RideDispatch.Json

/-!
# Printing JSON

`Json.render` writes a value without blanks, its entries in order. Quotes, backslashes and control
characters are escaped, and nothing else is.
-/

namespace RideDispatch.Json

/-- The lower-case hexadecimal digit of a number below sixteen. -/
def hexDigit (n : Nat) : Char := Nat.digitChar (n % 16)

/-- A character as it is written inside a string literal. -/
def escapeChar (c : Char) : List Char :=
  if c = '"' then ['\\', '"']
  else if c = '\\' then ['\\', '\\']
  else if c = '\n' then ['\\', 'n']
  else if c = '\r' then ['\\', 'r']
  else if c = '\t' then ['\\', 't']
  else if c = '\x08' then ['\\', 'b']
  else if c = '\x0c' then ['\\', 'f']
  else if c.toNat < 0x20 then
    ['\\', 'u', '0', '0', hexDigit (c.toNat / 16), hexDigit c.toNat]
  else [c]

/-- A text as a string literal. -/
def quote (s : String) : List Char := '"' :: (s.toList.flatMap escapeChar ++ ['"'])

/-- The digits of a number. -/
def Number.render : Number → String
  | .integer n => toString n
  | .real x => Decimal.render x

mutual

/-- The characters of a value, written without blanks. -/
def chars : Json → List Char
  | null => ['n', 'u', 'l', 'l']
  | bool true => ['t', 'r', 'u', 'e']
  | bool false => ['f', 'a', 'l', 's', 'e']
  | num n => n.render.toList
  | str s => quote s
  | arr [] => ['[', ']']
  | arr (item :: rest) => '[' :: (chars item ++ charsOfItems rest)
  | obj [] => ['\x7b', '\x7d']
  | obj ((name, item) :: rest) =>
    '\x7b' :: (quote name ++ ':' :: (chars item ++ charsOfEntries rest))

/-- The characters of the items after the first, and the closing bracket. -/
def charsOfItems : List Json → List Char
  | [] => [']']
  | item :: rest => ',' :: (chars item ++ charsOfItems rest)

/-- The characters of the entries after the first, and the closing brace. -/
def charsOfEntries : List (String × Json) → List Char
  | [] => ['\x7d']
  | (name, item) :: rest =>
    ',' :: (quote name ++ ':' :: (chars item ++ charsOfEntries rest))

end

/-- The text of a value. -/
def render (j : Json) : String := String.ofList (chars j)

end RideDispatch.Json

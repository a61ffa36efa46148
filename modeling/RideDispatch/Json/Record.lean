import RideDispatch.Json.Tree

/-!
# Records in JSON

A record is written as an object. `Json.Tree.entries?` gives the entries of an object that is
still a parse tree, and `required?` and `optional?` read one of them: a name may occur once only,
and entries of other names do not count.
-/

namespace RideDispatch.Json

/-- The values of the entries with the given name. -/
def valuesOf {α : Type} (entries : List (String × α)) (name : String) : List α :=
  (entries.filter fun entry => entry.1 == name).map (·.2)

/-- Reads the one entry of the given name. -/
def required? {α β : Type} (entries : List (String × α)) (name : String)
    (read? : α → Option β) : Option β :=
  match valuesOf entries name with
  | [value] => read? value
  | _ => none

/-- Reads the entry of the given name, or gives a default where there is none. -/
def optional? {α β : Type} (entries : List (String × α)) (name : String)
    (read? : α → Option β) (default : β) : Option β :=
  match valuesOf entries name with
  | [] => some default
  | [value] => read? value
  | _ => none

/-- The entries of an object whose names are texts. -/
def Tree.entries? : Tree → Option (List (String × Tree))
  | .obj entries => entries.mapM fun entry =>
    (glyphText? entry.1).map fun cs => (String.ofList cs, entry.2)
  | _ => none

/-- The word that a tree stands for. -/
def Tree.word? (t : Tree) : Option UInt64 := t.value?.bind Json.word?

/-- The double that a tree stands for. -/
def Tree.double? (t : Tree) : Option Float := t.value?.bind Json.double?

end RideDispatch.Json

import RideDispatch.Fleet.Vehicle
import RideDispatch.Json.Printer
import RideDispatch.Json.Record

/-!
# Kinds of tasks as documents

A kind of task is written as its name. It may also be given as a case without contents.
-/

namespace RideDispatch.TaskKind

/-- The document of a kind. -/
def toJson (kind : TaskKind) : Json := .str kind.name

/-- The kind that a tree names, as a text or as a case without contents. -/
def ofTree? (t : Json.Tree) : Option TaskKind :=
  (t.value?.bind Json.caseName?).bind ofName?

/-- Reads a kind. -/
def parse? (text : String) : Option TaskKind := (Json.Tree.parse? text).bind ofTree?

end RideDispatch.TaskKind

import RideDispatch.Json.Printer
import RideDispatch.Json.Record
import RideDispatch.Log

/-!
# Log entries as documents

`Log.jsonLines` writes the log as one JSON object a line, and `LogEntry.parse?` reads such a line.
A confirmation event tells its stage under the name `type`; a ride event has a `kind` and leaves
out a vehicle that it does not have. Both may also be written as arrays of their values in order.
-/

namespace RideDispatch

open Json (required? optional?)

namespace ConfirmationEvent

/-- The document of an event. -/
def toJson (e : ConfirmationEvent) : Json :=
  let common := [("type", Json.str e.stage.name), ("time", Json.ofWord e.time.ms),
    ("request", Json.ofWord e.request.val), ("passenger", Json.ofWord e.passenger.val),
    ("vehicle", Json.ofWord e.vehicle.val)]
  match e.stage with
  | .created => .obj common
  | .completed accepted => .obj (common ++ [("accepted", .bool accepted)])

/-- Whether a type names the closing stage. Where `byNumber` holds, the stages may also be given
by their numbers. -/
def closes? (byNumber : Bool) : Json → Option Bool
  | .str name =>
    if name = ConfirmationStage.created.name then some false
    else if name = (ConfirmationStage.completed true).name then some true
    else none
  | .num (.integer n) =>
    if byNumber then if n = 0 then some false else if n = 1 then some true else none else none
  | _ => none

/-- The event with the given values. -/
def ofValues? (time request passenger vehicle : Option UInt64)
    (stage : Option ConfirmationStage) : Option ConfirmationEvent :=
  match time, request, passenger, vehicle, stage with
  | some time, some request, some passenger, some vehicle, some stage =>
    some ⟨⟨time⟩, ⟨request⟩, ⟨passenger⟩, ⟨vehicle⟩, stage⟩
  | _, _, _, _, _ => none

/-- The event that a value describes. -/
def ofJson? (byNumber : Bool) : Json → Option ConfirmationEvent
  | .obj entries =>
    let word name := required? entries name Json.word?
    let stage := (required? entries "type" (closes? byNumber)).bind fun closes =>
      if closes then (required? entries "accepted" Json.bool?).map .completed
      else some .created
    ofValues? (word "time") (word "request") (word "passenger") (word "vehicle") stage
  | .arr [type, time, request, passenger, vehicle] =>
    ofValues? time.word? request.word? passenger.word? vehicle.word?
      (if closes? byNumber type = some false then some .created else none)
  | .arr [type, time, request, passenger, vehicle, accepted] =>
    ofValues? time.word? request.word? passenger.word? vehicle.word?
      (if closes? byNumber type = some true then accepted.bool?.map .completed else none)
  | _ => none

/-- Reads an event. -/
def parse? (text : String) : Option ConfirmationEvent :=
  (Json.parse? text).bind (ofJson? false)

end ConfirmationEvent

namespace RideStage

/-- The step that a tree names, as a text or as a case without contents. -/
def ofTree? (t : Json.Tree) : Option RideStage :=
  (t.value?.bind Json.caseName?).bind ofName?

/-- Reads a step. -/
def parse? (text : String) : Option RideStage := (Json.Tree.parse? text).bind ofTree?

end RideStage

namespace RideEvent

/-- The document of an event. -/
def toJson (e : RideEvent) : Json :=
  let common := [("time", Json.ofWord e.time.ms), ("kind", Json.str e.stage.name),
    ("request", Json.ofWord e.request.val), ("passenger", Json.ofWord e.passenger.val)]
  match e.vehicle with
  | none => .obj common
  | some vehicle => .obj (common ++ [("vehicle", Json.ofWord vehicle.val)])

/-- The vehicle that a tree names; null stands for none. -/
def vehicleOfTree? (t : Json.Tree) : Option (Option VehicleId) :=
  match t with
  | .null => some none
  | t => t.word?.map fun n => some ⟨n⟩

/-- The event with the given values. -/
def ofValues? (time : Option UInt64) (stage : Option RideStage)
    (request passenger : Option UInt64) (vehicle : Option (Option VehicleId)) :
    Option RideEvent :=
  match time, stage, request, passenger, vehicle with
  | some time, some stage, some request, some passenger, some vehicle =>
    some ⟨⟨time⟩, stage, ⟨request⟩, ⟨passenger⟩, vehicle⟩
  | _, _, _, _, _ => none

/-- The event that a tree describes. Entries of unknown names need no value. -/
def ofTree? (t : Json.Tree) : Option RideEvent :=
  match t with
  | .arr [time, kind, request, passenger, vehicle] =>
    ofValues? time.word? (RideStage.ofTree? kind) request.word? passenger.word?
      (vehicleOfTree? vehicle)
  | t =>
    t.entries?.bind fun entries =>
      let word name := required? entries name Json.Tree.word?
      ofValues? (word "time") (required? entries "kind" RideStage.ofTree?) (word "request")
        (word "passenger") (optional? entries "vehicle" vehicleOfTree? none)

/-- Reads an event. -/
def parse? (text : String) : Option RideEvent := (Json.Tree.parse? text).bind ofTree?

end RideEvent

namespace LogEntry

/-- The document of an entry. -/
def toJson : LogEntry → Json
  | confirmation e => e.toJson
  | ride e => e.toJson

/-- The entry that a tree describes: a confirmation event if it can be one, else a ride event. -/
def ofTree? (t : Json.Tree) : Option LogEntry :=
  t.value?.bind fun value =>
    match ConfirmationEvent.ofJson? true value with
    | some e => some (.confirmation e)
    | none => (RideEvent.ofTree? t).map .ride

/-- Reads an entry. -/
def parse? (text : String) : Option LogEntry := (Json.Tree.parse? text).bind ofTree?

end LogEntry

/-- The log as text: the document of each entry on a line of its own. -/
def Log.jsonLines (log : Log) : String :=
  String.ofList (log.toList.flatMap fun entry => Json.chars entry.toJson ++ ['\n'])

end RideDispatch

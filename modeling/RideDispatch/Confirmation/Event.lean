import RideDispatch.Decimal.Word
import RideDispatch.Id
import RideDispatch.Time

/-!
# Confirmation events

The dispatcher tells the world about each driver confirmation twice: when it is opened and when it
is closed. `ConfirmationEvent.toAttributes` writes an event as a flat map of texts and
`ConfirmationEvent.ofAttributes` reads such a map, with a cause in `AttributeError` where it
cannot.
-/

namespace RideDispatch

/-- What has happened to a driver confirmation. -/
inductive ConfirmationStage where
  | created
  /-- The confirmation is closed; `accepted` tells whether the driver takes the ride. -/
  | completed (accepted : Bool)
deriving DecidableEq, Repr

/-- The name of a stage in documents. -/
def ConfirmationStage.name : ConfirmationStage → String
  | created => "driverConfirmationCreated"
  | completed _ => "driverConfirmationCompleted"

/-- An event in the life of a driver confirmation. -/
structure ConfirmationEvent where
  time : Time
  request : RequestId
  passenger : PassengerId
  vehicle : VehicleId
  stage : ConfirmationStage
deriving DecidableEq, Repr

/-- The attributes of an event in its flat form. -/
inductive Attribute where
  | time
  | type
  | request
  | person
  | vehicle
  | accepted
deriving DecidableEq, Repr

/-- The name under which an attribute is written. -/
def Attribute.name : Attribute → String
  | time => "time"
  | type => "type"
  | request => "request"
  | person => "person"
  | vehicle => "vehicle"
  | accepted => "accepted"

/-- A flat map of texts. -/
abbrev Attributes := Std.ExtTreeMap String String

/-- Why a flat map is not an event. -/
inductive AttributeError where
  | missing (key : Attribute)
  | invalid (key : Attribute) (value : String)
  | unknownType (name : String)
deriving DecidableEq, Repr

/-- The wording of a fault in a flat map. -/
def AttributeError.message : AttributeError → String
  | missing key => "missing attribute \x60" ++ key.name ++ "\x60"
  | invalid key value =>
    "attribute \x60" ++ key.name ++ "\x60 has invalid value \x60" ++ value ++ "\x60"
  | unknownType name => "unknown event type \x60" ++ name ++ "\x60"

namespace Attributes

/-- The text of an attribute. -/
def text (attrs : Attributes) (key : Attribute) : Except AttributeError String :=
  match attrs[key.name]? with
  | some value => .ok value
  | none => .error (.missing key)

/-- The value of an attribute that is read by `read?`. -/
def value {α : Type} (attrs : Attributes) (key : Attribute) (read? : String → Option α) :
    Except AttributeError α :=
  match attrs.text key with
  | .error e => .error e
  | .ok text =>
    match read? text with
    | some a => .ok a
    | none => .error (.invalid key text)

/-- The truth value that a text stands for. -/
def bool? (text : String) : Option Bool :=
  if text = "true" then some true else if text = "false" then some false else none

/-- The text of a truth value. -/
def ofBool : Bool → String
  | true => "true"
  | false => "false"

end Attributes

namespace ConfirmationEvent

/-- The flat form of an event: identities as numbers, the time in milliseconds. -/
def toAttributes (e : ConfirmationEvent) : Attributes :=
  let common : Attributes := (∅ : Attributes)
    |>.insert Attribute.time.name (toString e.time.ms)
    |>.insert Attribute.type.name e.stage.name
    |>.insert Attribute.request.name (toString e.request.val)
    |>.insert Attribute.person.name (toString e.passenger.val)
    |>.insert Attribute.vehicle.name (toString e.vehicle.val)
  match e.stage with
  | .created => common
  | .completed accepted =>
    common.insert Attribute.accepted.name (Attributes.ofBool accepted)

/-- The event of a flat map. Other attributes do not count. -/
def ofAttributes (attrs : Attributes) : Except AttributeError ConfirmationEvent := do
  let time ← attrs.value .time Decimal.word?
  let request ← attrs.value .request Decimal.word?
  let passenger ← attrs.value .person Decimal.word?
  let vehicle ← attrs.value .vehicle Decimal.word?
  let type ← attrs.text .type
  let stage ←
    if type = ConfirmationStage.created.name then pure ConfirmationStage.created
    else if type = (ConfirmationStage.completed true).name then
      ConfirmationStage.completed <$> attrs.value .accepted Attributes.bool?
    else throw (.unknownType type)
  return ⟨⟨time⟩, ⟨request⟩, ⟨passenger⟩, ⟨vehicle⟩, stage⟩

end ConfirmationEvent

end RideDispatch

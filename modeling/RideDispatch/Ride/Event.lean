import RideDispatch.Id
import RideDispatch.Time

/-!
# Ride events

A ride event marks a step in the life of a request as the passenger sees it.
-/

namespace RideDispatch

/-- The steps in the life of a ride. -/
inductive RideStage where
  | submitted
  | scheduled
  | rejected
  | pickedUp
  | droppedOff
deriving DecidableEq, Repr

namespace RideStage

/-- The name of a step in documents. -/
def name : RideStage → String
  | submitted => "submitted"
  | scheduled => "scheduled"
  | rejected => "rejected"
  | pickedUp => "pickedUp"
  | droppedOff => "droppedOff"

/-- Every step, in the order of their names above. -/
def all : List RideStage := [submitted, scheduled, rejected, pickedUp, droppedOff]

/-- The step with the given name. -/
def ofName? (text : String) : Option RideStage := all.find? fun stage => stage.name = text

theorem ofName?_name (stage : RideStage) : ofName? stage.name = some stage := by
  cases stage <;> decide

end RideStage

/-- A step in the life of a ride. -/
structure RideEvent where
  time : Time
  stage : RideStage
  request : RequestId
  passenger : PassengerId
  /-- The vehicle, from the moment one is committed. -/
  vehicle : Option VehicleId
deriving DecidableEq, Repr

end RideDispatch

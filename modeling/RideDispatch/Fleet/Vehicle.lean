import RideDispatch.Request
import RideDispatch.Route

/-!
# Vehicles and their tasks

A vehicle serves from `serviceBegin` up to `serviceEnd` and works through its tasks in order. A
ride is four tasks: the empty drive to the pickup, the stop there, the drive with the passenger,
and the stop at the destination.
-/

namespace RideDispatch

/-- The kinds of tasks of a vehicle. -/
inductive TaskKind where
  | emptyDrive
  | pickup
  | occupiedDrive
  | dropoff
deriving DecidableEq, Repr

namespace TaskKind

/-- The name of a kind in documents. -/
def name : TaskKind → String
  | emptyDrive => "empty_drive"
  | pickup => "pickup"
  | occupiedDrive => "occupied_drive"
  | dropoff => "dropoff"

/-- Every kind, in the order of a ride. -/
def all : List TaskKind := [emptyDrive, pickup, occupiedDrive, dropoff]

/-- The kind with the given name. -/
def ofName? (text : String) : Option TaskKind := all.find? fun kind => kind.name = text

/-- Whether the vehicle moves during the task. -/
def isDrive : TaskKind → Bool
  | emptyDrive | occupiedDrive => true
  | pickup | dropoff => false

end TaskKind

/-- Something that a vehicle has to do. -/
structure Task where
  kind : TaskKind
  beginTime : Time
  endTime : Time
  request : RequestId
  passenger : PassengerId
  /-- Where the vehicle is after the task. -/
  endPlace : Place
  /-- The links that are driven; none for a stop. -/
  links : List LinkId

/-- A vehicle with its time of service and its tasks. -/
structure Vehicle where
  id : VehicleId
  serviceBegin : Time
  serviceEnd : Time
  /-- Where the vehicle is after the last task that was retired. -/
  place : Place
  tasks : List Task

/-- A task that is over, as it is reported. -/
structure TaskEnded where
  vehicle : VehicleId
  kind : TaskKind
  request : RequestId
  passenger : PassengerId
  time : Time
deriving DecidableEq, Repr

namespace Vehicle

/-- Where the vehicle is once all its tasks are done. -/
def finalPlace (v : Vehicle) : Place :=
  match v.tasks.getLast? with
  | some task => task.endPlace
  | none => v.place

/-- The end of the last task, or zero without one. -/
def busyUntil (v : Vehicle) : Time :=
  match v.tasks.getLast? with
  | some task => task.endTime
  | none => 0

/-- The task that the vehicle is at. -/
def currentTask? (v : Vehicle) (now : Time) : Option Task :=
  v.tasks.find? fun task => task.beginTime ≤ now ∧ now < task.endTime

/-- Whether the moment lies outside the time of service. -/
def isOutOfService (v : Vehicle) (now : Time) : Bool :=
  now < v.serviceBegin ∨ v.serviceEnd ≤ now

/-- Whether every task is over. -/
def isFree (v : Vehicle) (now : Time) : Bool := v.tasks.all fun task => task.endTime ≤ now

/-- The moment from which the vehicle could do something new. -/
def availableAt (v : Vehicle) (now : Time) : Time := max (max now v.busyUntil) v.serviceBegin

/-- The report of a task of the vehicle. -/
def report (v : Vehicle) (task : Task) : TaskEnded :=
  ⟨v.id, task.kind, task.request, task.passenger, task.endTime⟩

/-- Retires the tasks at the front that are over, and reports them. -/
def retire (v : Vehicle) (now : Time) : List TaskEnded × Vehicle :=
  let ended := v.tasks.takeWhile fun task => task.endTime ≤ now
  let rest := v.tasks.dropWhile fun task => task.endTime ≤ now
  let place := match ended.getLast? with
    | some task => task.endPlace
    | none => v.place
  (ended.map v.report, { v with place := place, tasks := rest })

end Vehicle

end RideDispatch

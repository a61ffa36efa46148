import RideDispatch.Confirmation.Event
import RideDispatch.Ride.Event

/-!
# The event log

A simulation appends what happens to one log. `Log.findRide?` is the first event of a step of a
ride, and `Log.rideRecords` gathers the times of every ride in one pass.
-/

namespace RideDispatch

/-- An entry of the log. -/
inductive LogEntry where
  | confirmation (event : ConfirmationEvent)
  | ride (event : RideEvent)
deriving DecidableEq, Repr

namespace LogEntry

/-- The moment of an entry. -/
def time : LogEntry → Time
  | confirmation e => e.time
  | ride e => e.time

/-- The request that an entry is about. -/
def request : LogEntry → RequestId
  | confirmation e => e.request
  | ride e => e.request

/-- The confirmation event of an entry. -/
def confirmation? : LogEntry → Option ConfirmationEvent
  | confirmation e => some e
  | ride _ => none

/-- The ride event of an entry. -/
def ride? : LogEntry → Option RideEvent
  | confirmation _ => none
  | ride e => some e

end LogEntry

/-- The times of one ride; a step that has not been logged has none. -/
structure RideRecord where
  request : RequestId
  vehicle : Option VehicleId := none
  submittedAt : Option Time := none
  scheduledAt : Option Time := none
  rejectedAt : Option Time := none
  pickedUpAt : Option Time := none
  droppedOffAt : Option Time := none
deriving DecidableEq, Repr

namespace RideRecord

/-- The time of a step. -/
def timeOf (r : RideRecord) : RideStage → Option Time
  | .submitted => r.submittedAt
  | .scheduled => r.scheduledAt
  | .rejected => r.rejectedAt
  | .pickedUp => r.pickedUpAt
  | .droppedOff => r.droppedOffAt

/-- The span between two steps, both of which must have been logged. -/
def span (start finish : Option Time) : Option Time :=
  match start, finish with
  | some a, some b => some (b - a)
  | _, _ => none

/-- The time from the submission to the commitment of a vehicle. -/
def timeToSchedule (r : RideRecord) : Option Time := span r.submittedAt r.scheduledAt

/-- The time from the submission to the pickup. -/
def waitTime (r : RideRecord) : Option Time := span r.submittedAt r.pickedUpAt

/-- The time from the pickup to the drop-off. -/
def rideDuration (r : RideRecord) : Option Time := span r.pickedUpAt r.droppedOffAt

/-- Whether the passenger has arrived. -/
def isCompleted (r : RideRecord) : Bool := r.droppedOffAt.isSome

/-- The record after an event: the first time of each step and the last vehicle count. -/
def extend (r : RideRecord) (e : RideEvent) : RideRecord :=
  let r := { r with vehicle := e.vehicle.or r.vehicle }
  match e.stage with
  | .submitted => { r with submittedAt := r.submittedAt.or (some e.time) }
  | .scheduled => { r with scheduledAt := r.scheduledAt.or (some e.time) }
  | .rejected => { r with rejectedAt := r.rejectedAt.or (some e.time) }
  | .pickedUp => { r with pickedUpAt := r.pickedUpAt.or (some e.time) }
  | .droppedOff => { r with droppedOffAt := r.droppedOffAt.or (some e.time) }

end RideRecord

/-- Everything that has happened, in order. -/
structure Log where
  entries : Array LogEntry := #[]

namespace Log

/-- The log with one more entry. -/
def push (log : Log) (entry : LogEntry) : Log := ⟨log.entries.push entry⟩

/-- The log with one more ride event. -/
def recordRide (log : Log) (event : RideEvent) : Log := log.push (.ride event)

/-- The log with more confirmation events. -/
def recordConfirmations (log : Log) (events : List ConfirmationEvent) : Log :=
  events.foldl (fun log event => log.push (.confirmation event)) log

/-- The entries as a list. -/
def toList (log : Log) : List LogEntry := log.entries.toList

/-- The number of entries. -/
def size (log : Log) : Nat := log.entries.size

/-- The entries after the first ones of a number. -/
def since (log : Log) (count : Nat) : List LogEntry :=
  (log.entries.extract count log.entries.size).toList

/-- The confirmation events of the log. -/
def confirmations (log : Log) : List ConfirmationEvent :=
  log.toList.filterMap LogEntry.confirmation?

/-- The ride events of the log. -/
def rides (log : Log) : List RideEvent := log.toList.filterMap LogEntry.ride?

/-- The first event of a step of a ride. -/
def findRide? (log : Log) (request : RequestId) (stage : RideStage) : Option RideEvent :=
  log.rides.find? fun e => e.request = request ∧ e.stage = stage

/-- The records after one more event. -/
def extendRecords (records : Std.ExtTreeMap RequestId RideRecord) (e : RideEvent) :
    Std.ExtTreeMap RequestId RideRecord :=
  records.insert e.request ((records[e.request]?.getD { request := e.request }).extend e)

/-- The record of each ride that the log mentions. -/
def rideRecords (log : Log) : Std.ExtTreeMap RequestId RideRecord :=
  log.rides.foldl extendRecords ∅

@[simp] theorem toList_push (log : Log) (entry : LogEntry) :
    (log.push entry).toList = log.toList ++ [entry] := by
  simp [push, toList]

@[simp] theorem toList_recordConfirmations (log : Log) (events : List ConfirmationEvent) :
    (log.recordConfirmations events).toList = log.toList ++ events.map .confirmation := by
  unfold recordConfirmations
  induction events generalizing log with
  | nil => simp
  | cons e rest ih => simp [List.foldl_cons, ih]

end Log

end RideDispatch

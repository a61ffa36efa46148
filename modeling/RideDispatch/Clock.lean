import RideDispatch.Id
import RideDispatch.Time.Arithmetic

/-!
# The simulation clock

The clock holds the present moment and the events that are still to come. Events are taken in the
order of their times; at one time vehicles move first, then requests expire, then a dispatch cycle
runs and then new requests come in; what is still equal goes by the order of scheduling.
`Clock.pending` is kept in that order, so `Clock.pop?` takes its head.
-/

namespace RideDispatch

/-- What a scheduled event is about to do, in the order in which one moment is worked through. -/
inductive EventKind where
  | vehicleTaskEnded
  | requestExpired
  | dispatchCycle
  | requestSubmitted
deriving DecidableEq, Repr

/-- The place of a kind in the order of one moment. -/
def EventKind.rank : EventKind → Nat
  | vehicleTaskEnded => 0
  | requestExpired => 1
  | dispatchCycle => 2
  | requestSubmitted => 3

/-- Whom a scheduled event concerns. -/
inductive EventSubject where
  | request (id : RequestId)
  | vehicle (id : VehicleId)
deriving DecidableEq, Repr

/-- A scheduled event. -/
structure ScheduledEvent where
  time : Time
  kind : EventKind
  subject : Option EventSubject
  /-- The number of events that were scheduled before this one. -/
  ticket : Nat
deriving DecidableEq, Repr

namespace ScheduledEvent

/-- The request that the event concerns. -/
def request? (e : ScheduledEvent) : Option RequestId :=
  match e.subject with
  | some (.request id) => some id
  | _ => none

/-- The vehicle that the event concerns. -/
def vehicle? (e : ScheduledEvent) : Option VehicleId :=
  match e.subject with
  | some (.vehicle id) => some id
  | _ => none

/-- Whether an event is taken before another: by time, then kind, then order of scheduling. -/
def Precedes (a b : ScheduledEvent) : Prop :=
  a.time < b.time ∨
    a.time = b.time ∧ (a.kind.rank < b.kind.rank ∨ a.kind = b.kind ∧ a.ticket < b.ticket)

instance (a b : ScheduledEvent) : Decidable (a.Precedes b) :=
  inferInstanceAs (Decidable (_ ∨ _ ∧ (_ ∨ _ ∧ _)))

end ScheduledEvent

/-- The present moment and the events to come. -/
structure Clock where
  now : Time := 0
  /-- The number of events that have been scheduled so far. It is kept in a word of 64 bits, but counts by ones
  from zero, so the word would have to take in 2^64 events before it wraps. -/
  issued : Nat := 0
  /-- The events to come, the next one first. -/
  pending : List ScheduledEvent := []
deriving Repr

namespace Clock

/-- Puts an event in front of the first one that it precedes. -/
def insert (e : ScheduledEvent) : List ScheduledEvent → List ScheduledEvent
  | [] => [e]
  | other :: rest => if e.Precedes other then e :: other :: rest else other :: insert e rest

/-- Schedules an event; one that lies in the past happens now. -/
def schedule (c : Clock) (time : Time) (kind : EventKind) (subject : Option EventSubject) :
    Clock where
  now := c.now
  issued := c.issued + 1
  pending := insert ⟨max time c.now, kind, subject, c.issued⟩ c.pending

/-- Schedules an event at a number of seconds from the start. They are turned into a time by bare arithmetic,
which may stop. -/
def scheduleSecs? (c : Clock) (secs : UInt64) (kind : EventKind) (subject : Option EventSubject)
    (mode : Arithmetic := .checked) : Option Clock :=
  (Time.bareSecs? secs mode).map fun time => c.schedule time kind subject

/-- Schedules an event after a delay. -/
def scheduleIn (c : Clock) (delay : Time) (kind : EventKind) (subject : Option EventSubject) :
    Clock :=
  c.schedule (c.now + delay) kind subject

/-- Schedules an event after a delay in seconds, which are turned into a time in the same way. -/
def scheduleInSecs? (c : Clock) (secs : UInt64) (kind : EventKind) (subject : Option EventSubject)
    (mode : Arithmetic := .checked) : Option Clock :=
  (Time.bareSecs? secs mode).map fun delay => c.scheduleIn delay kind subject

/-- Takes the next event and moves the present moment to it. -/
def pop? (c : Clock) : Option (ScheduledEvent × Clock) :=
  match c.pending with
  | [] => none
  | e :: rest => some (e, { c with now := e.time, pending := rest })

/-- The time of the next event. -/
def nextTime? (c : Clock) : Option Time := c.pending.head?.map ScheduledEvent.time

/-- Whether an event of a kind is still to come. -/
def hasPending (c : Clock) (kind : EventKind) : Bool := c.pending.any fun e => e.kind = kind

/-- The number of events to come. -/
def size (c : Clock) : Nat := c.pending.length

/-- Whether no event is to come. -/
def isEmpty (c : Clock) : Bool := c.pending.isEmpty

/-- Inserting loses no event and adds only the given one. -/
theorem insert_perm (e : ScheduledEvent) (events : List ScheduledEvent) :
    (insert e events).Perm (e :: events) := by
  induction events with
  | nil => exact .refl _
  | cons other rest ih =>
    unfold insert
    split
    next => exact .refl _
    next => exact (ih.cons other).trans (.swap e other rest)

end Clock

end RideDispatch

import RideDispatch.Scenario

/-!
# Running a simulation

`Simulation.step?` takes the next event of the clock and lets it happen: tasks of a vehicle end, a
request expires, a dispatch cycle runs, or a request is submitted. The log tells what came of it.
Cycles are scheduled on the multiples of the dispatcher's step, and only while there is something
left to do.
-/

namespace RideDispatch

/-- The first multiple of a step after a moment, by bare arithmetic, which may stop. A step of zero counts as
one millisecond. -/
def nextCycle? (now step : Time) (mode : Arithmetic := .checked) : Option Time := do
  let step := max step ⟨1⟩
  let count ← mode.word? (now.toNat / step.toNat + 1)
  let ms ← mode.word? (count.toNat * step.toNat)
  return ⟨ms⟩

/-- The time for which a simulation schedules a cycle. Where the arithmetic stops, `Time.never` stands in for it. -/
def nextCycleTime (now step : Time) : Time := (nextCycle? now step).getD .never

/-- The step in the life of a ride that the end of a task marks. -/
def TaskKind.stage? : TaskKind → Option RideStage
  | pickup => some .pickedUp
  | dropoff => some .droppedOff
  | emptyDrive | occupiedDrive => none

/-- The ride event that the end of a task marks. -/
def TaskEnded.rideEvent? (t : TaskEnded) : Option RideEvent :=
  t.kind.stage?.map fun stage => ⟨t.time, stage, t.request, t.passenger, some t.vehicle⟩

namespace Simulation

/-- Schedules the next dispatch cycle, unless one is scheduled already. The simulation goes astray where the
arithmetic of its time stops. -/
def ensureCycle (sim : Simulation) : Simulation :=
  if sim.clock.hasPending .dispatchCycle then sim
  else
    let step := sim.dispatcher.reoptimizationStep
    { sim with
      clock := sim.clock.schedule (nextCycleTime sim.clock.now step) .dispatchCycle none
      astray := sim.astray || (nextCycle? sim.clock.now step).isNone }

/-- Retires the tasks of a vehicle that are over. -/
def endTasks (sim : Simulation) (vehicle : VehicleId) : Simulation :=
  let (ended, fleet) := sim.fleet.advance vehicle sim.clock.now
  { sim with
    fleet := fleet
    log := (ended.filterMap TaskEnded.rideEvent?).foldl Log.recordRide sim.log }

/-- Gives up a request whose deadline is reached, if it is still queued. -/
def expire (sim : Simulation) (request : RequestId) : Simulation :=
  let now := sim.clock.now
  match sim.dispatcher.withdraw request now with
  | none => sim
  | some w =>
    { sim with
      dispatcher := w.dispatcher
      log := (sim.log.recordConfirmations w.events).recordRide
        ⟨now, .rejected, request, w.request.passenger, none⟩ }

/-- Schedules the ends of the tasks that the fleet has taken on. -/
def scheduleWakeups (sim : Simulation) : Simulation :=
  let (wakeups, fleet) := sim.fleet.takeWakeups
  { sim with
    fleet := fleet
    clock := wakeups.foldl
      (fun clock wakeup =>
        clock.schedule wakeup.2 .vehicleTaskEnded (some (.vehicle wakeup.1)))
      sim.clock }

/-- The ride events of a cycle. A cycle without a report has none. -/
def scheduledEvents (now : Time) : Except DispatchError CycleReport → List RideEvent
  | .error _ => []
  | .ok report => report.committed.map fun ride =>
    ⟨now, .scheduled, ride.request, ride.passenger, some ride.vehicle⟩

/-- Runs a dispatch cycle. -/
def runCycle (sim : Simulation) : Simulation :=
  let now := sim.clock.now
  let result := sim.dispatcher.runCycle ⟨now, sim.router⟩ sim.fleet
  let log := (scheduledEvents now result.report).foldl Log.recordRide
    (sim.log.recordConfirmations result.events)
  let sim := { sim with
    dispatcher := result.dispatcher
    fleet := result.fleet
    log := log
    astray := sim.astray || result.astray }
  let sim := sim.scheduleWakeups
  if sim.dispatcher.hasPendingWork then sim.ensureCycle else sim

/-- Schedules the moment at which a request is given up, if there is one. -/
def scheduleExpiry (sim : Simulation) (request : RequestId) : Simulation :=
  match sim.maxSearch with
  | none => sim
  | some span =>
    { sim with clock := sim.clock.scheduleIn span .requestExpired (some (.request request)) }

/-- Submits a request. -/
def submit (sim : Simulation) (request : RequestId) : Simulation :=
  match sim.upcoming[request]? with
  | none => sim
  | some spec =>
    let now := sim.clock.now
    let r := Request.immediate request spec.passenger spec.origin spec.destination now
      sim.maxSearch
    let sim := { sim with
      upcoming := sim.upcoming.erase request
      dispatcher := sim.dispatcher.submit r
      log := sim.log.recordRide ⟨now, .submitted, request, spec.passenger, none⟩ }
    (sim.scheduleExpiry request).ensureCycle

/-- Lets an event happen. One that does not concern the kind of thing it should does nothing. -/
def handle (sim : Simulation) (e : ScheduledEvent) : Simulation :=
  match e.kind with
  | .vehicleTaskEnded =>
    match e.vehicle? with
    | some vehicle => sim.endTasks vehicle
    | none => sim
  | .requestExpired =>
    match e.request? with
    | some request => sim.expire request
    | none => sim
  | .dispatchCycle => sim.runCycle
  | .requestSubmitted =>
    match e.request? with
    | some request => sim.submit request
    | none => sim

/-- Whether the simulation is over at a moment. -/
def isOver (sim : Simulation) (time : Time) : Bool :=
  match sim.endTime with
  | some endTime => endTime ≤ time
  | none => false

/-- Takes the next event and lets it happen. There is none if nothing is scheduled or the next
event lies at the end or beyond. -/
def step? (sim : Simulation) : Option (ScheduledEvent × Simulation) :=
  match sim.clock.pop? with
  | none => none
  | some (e, clock) =>
    if sim.isOver e.time then none else some (e, { sim with clock := clock }.handle e)

/-- Takes up to a number of steps. Gives the simulation after each step, with the event of the
step. -/
def runFor : Nat → Simulation → List (ScheduledEvent × Simulation)
  | 0, _ => []
  | steps + 1, sim =>
    match sim.step? with
    | none => []
    | some (e, next) => (e, next) :: runFor steps next

/-- Schedules the first dispatch cycle, at the start. -/
def scheduleFirstCycle (sim : Simulation) : Simulation :=
  { sim with clock := sim.clock.schedule 0 .dispatchCycle none }

end Simulation

end RideDispatch

import RideDispatch.Fleet.Schedule
import RideDispatch.Proofs.Cycle

/-!
# Changes in place

The functions of this library give either new values or a failure. A program that has its registry, its
fleet and its session in one place changes them bit by bit instead: it writes to one table after the other,
and when it fails, what has been written stays. The procedures here are such programs, with the state as it is
when they end, also when they end with a failure. Each of them does what the function does, and leaves
everything as it was where the function fails (`Office.add_run`, `ScheduledFleet.commit_run`,
`Session.open_run`).
-/

namespace RideDispatch

variable {ε σ τ α : Type}

/-- What a procedure leaves, whether it has failed or not. -/
def stateAfter : EStateM.Result ε σ α → σ
  | .ok _ s => s
  | .error _ s => s

/-! ## The registry -/

/-- A registry with what it has told so far. -/
structure Office where
  registry : Registry
  told : List ConfirmationEvent

namespace Office

/-- Writes to the registry. -/
def write (f : Registry → Registry) : EStateM ε Office Unit :=
  modify fun o => { o with registry := f o.registry }

/-- Tells an event. -/
def tell (e : ConfirmationEvent) : EStateM ε Office Unit :=
  modify fun o => { o with told := o.told ++ [e] }

/-- Opens a confirmation, unless its request or its vehicle has one. -/
def add (request : Request) (vehicle : VehicleId) (pickup : Route) (now : Time) :
    EStateM DispatchError Office Confirmation := do
  if (← get).registry.isWaitingRequest request.id then throw (.requestAlreadyPending request.id)
  if (← get).registry.isWaitingVehicle vehicle then throw (.vehicleAlreadyPending vehicle)
  let c := (← get).registry.newConfirmation request vehicle pickup now
  write fun r => { r with nextId := r.nextId + 1 }
  tell c.createdEvent
  write fun r => { r with byRequest := r.byRequest.insert c.request c.id }
  write fun r => { r with byVehicle := r.byVehicle.insert c.vehicle c.id }
  write fun r => { r with confirmations := r.confirmations.insert c.id c }
  return c

/-- Accepts every confirmation that is due, and counts them. -/
def tick (now : Time) : EStateM ε Office Nat := do
  let (count, registry) := (← get).registry.tick now
  write fun _ => registry
  return count

/-- Closes a confirmation. -/
def remove (id : ConfirmationId) (now : Time) : EStateM ε Office (Option Confirmation) := do
  match (← get).registry.confirmations[id]? with
  | none => return none
  | some c =>
    write fun r => { r with confirmations := r.confirmations.erase id }
    write fun r => { r with byRequest := r.byRequest.erase c.request }
    write fun r => { r with byVehicle := r.byVehicle.erase c.vehicle }
    tell (c.completedEvent now)
    return some c

/-- Closes the confirmation of a request as not accepted. -/
def withdraw (request : RequestId) (now : Time) : EStateM ε Office (Option Confirmation) := do
  match (← get).registry.byRequest[request]? with
  | none => return none
  | some id =>
    write fun r => { r with confirmations := r.confirmations.modify id fun c => c.resolve false }
    remove id now

variable {o : Office} {request : Request} {vehicle : VehicleId} {pickup : Route} {now : Time}
variable {id : ConfirmationId} {q : RequestId}

/-- Where no confirmation can be opened, nothing has been written and nothing told. -/
lemma add_run : (add request vehicle pickup now).run o =
    match o.registry.add request vehicle pickup now with
    | .ok (c, e, registry) => .ok c ⟨registry, o.told ++ [e]⟩
    | .error e => .error e o := by
  unfold Registry.add add
  by_cases asked : o.registry.isWaitingRequest request.id = true
  · simp [asked]
  · by_cases bound : o.registry.isWaitingVehicle vehicle = true
    · simp [asked, bound]
    · simp only [EStateM.run_bind, EStateM.run_get, asked, bound, Bool.false_eq_true, if_false]
      rfl

/-- What closing a confirmation leaves: what there was, if there is none. -/
def closed (o : Office) : Option (Confirmation × ConfirmationEvent × Registry) →
    EStateM.Result ε Office (Option Confirmation)
  | none => .ok none o
  | some (c, e, registry) => .ok (some c) ⟨registry, o.told ++ [e]⟩

lemma remove_run (own : ∀ c, o.registry.confirmations[id]? = some c → c.id = id) :
    (remove id now : EStateM ε Office _).run o = o.closed (o.registry.remove id now) := by
  unfold remove Registry.remove
  cases found : o.registry.confirmations[id]? with
  | none => simp [found, closed]
  | some c =>
    obtain rfl := own c found
    simp only [EStateM.run_bind, EStateM.run_get, EStateM.run_pure, found]
    rfl

lemma withdraw_run (sound : o.registry.Sound) :
    (withdraw q now : EStateM ε Office _).run o = o.closed (o.registry.withdraw q now) := by
  cases found : o.registry.byRequest[q]? with
  | none =>
    unfold withdraw Registry.withdraw
    simp [found, closed]
  | some id =>
    obtain ⟨c, held, rfl, _⟩ := (sound.byRequest q id).mp found
    let refused : Registry := { o.registry with
      confirmations := o.registry.confirmations.modify c.id fun c => c.resolve false }
    have entry : refused.confirmations[c.id]? = some (c.resolve false) := by
      rw [Table.getElem?_modify, if_pos rfl, held]
      rfl
    have own : ∀ c', refused.confirmations[c.id]? = some c' → c'.id = c.id := by
      intro c' found'
      rw [← Option.some.inj (entry.symm.trans found')]
      rfl
    have first : (withdraw q now : EStateM ε Office _).run o =
        (remove c.id now).run ⟨refused, o.told⟩ := by
      unfold withdraw
      simp only [EStateM.run_bind, EStateM.run_get, found]
      rfl
    have whole : o.registry.withdraw q now = refused.remove c.id now := by
      unfold Registry.withdraw
      rw [found]
    rw [first, whole, remove_run own]
    unfold Registry.remove
    rw [entry]
    rfl

end Office

/-! ## The fleet -/

namespace ScheduledFleet

/-- Appends a task to those of a vehicle, and notes its end. -/
def append (id : VehicleId) (task : Task) : EStateM CommitError ScheduledFleet Unit := do
  modify fun f => { f with wakeups := f.wakeups ++ [(id, task.endTime)] }
  modify fun f => { f with vehicles := f.vehicles.modify id fun v => { v with tasks := v.tasks ++ [task] } }

/-- Commits a vehicle to a request. -/
def commitInPlace (id : VehicleId) (request : Request) (pickup : Route) (now : Time) :
    EStateM CommitError ScheduledFleet Unit := do
  let f ← get
  match f.vehicles[id]? with
  | none => throw (.unknownVehicle id)
  | some v =>
    let start := max (max pickup.departure now) v.busyUntil
    if v.serviceEnd ≤ start then throw (.serviceEnded id v.serviceEnd)
    let pickedUp := start + pickup.travelTime + f.pickupDuration
    match f.router.route? request.origin request.destination pickedUp with
    | none => throw (f.wayError request)
    | some occupied => (f.ride request pickup occupied start).forM (append id)

variable {f : ScheduledFleet} {id : VehicleId} {v : Vehicle} {request : Request} {pickup : Route} {now : Time}

/-- Tasks that are appended one by one are all there in the end. -/
lemma forM_append (found : f.vehicles[id]? = some v) (tasks : List Task) :
    (forM tasks (append id)).run f = .ok () { f with
      vehicles := f.vehicles.insert id { v with tasks := v.tasks ++ tasks }
      wakeups := f.wakeups ++ tasks.map fun task => (id, task.endTime) } := by
  induction tasks generalizing f v with
  | nil =>
    have same : f.vehicles.insert id { v with tasks := v.tasks ++ [] } = f.vehicles := by
      apply Std.ExtTreeMap.ext_getElem?
      intro id'
      rw [Table.getElem?_insert]
      split
      · rename_i own
        rw [← own, found, List.append_nil]
      · rfl
    rw [same]
    simp
  | cons task rest ih =>
    let next : ScheduledFleet := { f with
      vehicles := f.vehicles.modify id fun v => { v with tasks := v.tasks ++ [task] }
      wakeups := f.wakeups ++ [(id, task.endTime)] }
    have given : next.vehicles[id]? = some { v with tasks := v.tasks ++ [task] } := by
      rw [Table.getElem?_modify, if_pos rfl, found]
      rfl
    have last : next.vehicles.insert id { v with tasks := v.tasks ++ [task] ++ rest } =
        f.vehicles.insert id { v with tasks := v.tasks ++ task :: rest } := by
      apply Std.ExtTreeMap.ext_getElem?
      intro id'
      rw [Table.getElem?_insert, Table.getElem?_insert, Table.getElem?_modify]
      split
      · rw [List.append_assoc]
        rfl
      · rfl
    have step : (append id task).run f = .ok () next := rfl
    rw [List.forM_cons, EStateM.run_bind, step]
    simp only [ih given, last]
    simp only [next, List.map_cons, List.append_assoc, List.singleton_append]

lemma commit_run (f : ScheduledFleet) (id : VehicleId) (request : Request) (pickup : Route) (now : Time) :
    (commitInPlace id request pickup now).run f =
    match f.commit id request pickup now with
    | .ok f' => .ok () f'
    | .error e => .error e f := by
  unfold commitInPlace commit
  cases found : f.vehicles[id]? with
  | none => simp [found]
  | some v =>
    generalize begins : max (max pickup.departure now) v.busyUntil = start
    by_cases ended : v.serviceEnd ≤ start
    · simp [found, begins, ended]
    · cases way : f.router.route? request.origin request.destination
          (start + pickup.travelTime + f.pickupDuration) with
      | none => simp [found, begins, ended, way]
      | some occupied =>
        simp only [EStateM.run_bind, EStateM.run_get, found, begins, ended, way, if_false]
        exact forM_append found _

end ScheduledFleet

/-! ## The session -/

namespace Session

section Parts

variable {φ : Type}

/-- Lets the registry of a session do something. -/
def atOffice (p : EStateM ε Office α) : EStateM ε (Session φ) α := fun s =>
  let back (o : Office) : Session φ :=
    { s with state := { s.state with registry := o.registry }, events := o.told }
  match p.run ⟨s.state.registry, s.events⟩ with
  | .ok a o => .ok a (back o)
  | .error e o => .error e (back o)

/-- Goes on after a failure, too. -/
def attempt (p : EStateM τ σ α) : EStateM ε σ (Except τ α) := fun s =>
  match p.run s with
  | .ok a s => .ok (.ok a) s
  | .error e s => .ok (.error e) s

end Parts

/-- Lets the fleet of a session do something. -/
def atFleet (p : EStateM CommitError ScheduledFleet α) : EStateM Refusal (Session ScheduledFleet) α := fun s =>
  match p.run s.fleet with
  | .ok a f => .ok a { s with fleet := f }
  | .error e f => .error (.ofCommitError e) { s with fleet := f }

/-- Gives the ride of a confirmation to the fleet, unless there is a reason not to. -/
def giveRide (now : Time) (c : Confirmation) : EStateM Refusal (Session ScheduledFleet) Unit := do
  let s ← get
  if !c.accepted then throw { reason := .refused }
  if s.fleet.isOutOfService c.vehicle now then throw { reason := .outOfService }
  match s.state.queue.get? c.request with
  | none => throw { reason := .notUnplanned }
  | some request =>
    if request.isExpired now then throw { reason := .expired }
    atFleet (ScheduledFleet.commitInPlace c.vehicle request (c.pickup.retimed now) now)

/-- Consumes a confirmation. -/
def consumeInPlace (now : Time) (id : ConfirmationId) : EStateM ε (Session ScheduledFleet) Placement := do
  match (← get).state.registry.get? id with
  | none => return .dropped .notUnplanned
  | some c =>
    let outcome ← attempt (giveRide now c)
    let _ ← atOffice (Office.remove id now)
    match outcome with
    | .ok _ =>
      modify fun s => { s with state := { s.state with queue := s.state.queue.erase c.request } }
      modify fun s => { s with state := { s.state with zones := s.state.zones.eraseRequest c.request } }
      modify fun s => { s with state := { s.state with zones := s.state.zones.eraseVehicle c.vehicle } }
      modify fun s => { s with report := s.report.addCommitted ⟨c.request, c.passenger, c.vehicle⟩ }
      return .committed
    | .error refusal =>
      modify fun s => s.note refusal.astray
      modify fun s => { s with report := s.report.addDropped c.request refusal.reason }
      return .dropped refusal.reason

/-- Asks the driver of a pairing. -/
def openInPlace (now : Time) (p : Pairing) : EStateM DispatchError (Session ScheduledFleet) Placement := do
  match (← get).state.queue.get? p.request with
  | none =>
    modify fun s => { s with report := s.report.addDropped p.request .notUnplanned }
    return .dropped .notUnplanned
  | some request =>
    let c ← atOffice (Office.add request p.vehicle p.pickup now)
    modify fun s => { s with report := { s.report with opened := s.report.opened + 1 } }
    if c.complete then consumeInPlace now c.id else return .pending

variable {s : Session ScheduledFleet} {now : Time} {c : Confirmation} {p : Pairing} {id : ConfirmationId}

/-- Whatever the reason is not to give the ride, the session is as it was. -/
lemma giveRide_run : (giveRide now c).run s =
    match s.outcome now c with
    | .ok fleet => .ok () { s with fleet := fleet }
    | .error refusal => .error refusal s := by
  have serving : Fleet.isOutOfService s.fleet c.vehicle now = s.fleet.isOutOfService c.vehicle now := rfl
  unfold giveRide outcome
  rw [serving]
  by_cases accepted : c.accepted = true
  · by_cases gone : s.fleet.isOutOfService c.vehicle now = true
    · simp [accepted, gone]
    · cases queued : s.state.queue.get? c.request with
      | none => simp [accepted, gone, queued]
      | some request =>
        by_cases expired : request.isExpired now = true
        · simp [accepted, gone, queued, expired]
        · have given := ScheduledFleet.commit_run s.fleet c.vehicle request (c.pickup.retimed now) now
          have same : Fleet.commit s.fleet c.vehicle request (c.pickup.retimed now) now =
            s.fleet.commit c.vehicle request (c.pickup.retimed now) now := rfl
          simp only [EStateM.run_bind, EStateM.run_get, accepted, gone, queued, expired]
          show atFleet _ s = _
          unfold atFleet
          rw [given, same]
          cases s.fleet.commit c.vehicle request (c.pickup.retimed now) now <;> rfl
  · simp [accepted]

/-- Opening a confirmation, of which one event tells. -/
lemma atOffice_add (s : Session ScheduledFleet) (request : Request) (vehicle : VehicleId) (pickup : Route)
    (now : Time) :
    (atOffice (Office.add request vehicle pickup now)).run s =
    match s.state.registry.add request vehicle pickup now with
    | .ok (c, e, registry) =>
      .ok c { s with state := { s.state with registry := registry }, events := s.events ++ [e] }
    | .error e => .error e s := by
  show atOffice _ s = _
  unfold atOffice
  rw [Office.add_run]
  cases s.state.registry.add request vehicle pickup now <;> rfl

/-- Closing a confirmation that is held. -/
lemma atOffice_remove (now : Time) (held : s.state.registry.Holds c) :
    (atOffice (Office.remove c.id now) : EStateM ε _ _).run s = .ok (some c) (s.close now c) := by
  have own : ∀ c', s.state.registry.confirmations[c.id]? = some c' → c'.id = c.id := by
    intro c' found
    rw [← Option.some.inj (held.symm.trans found)]
  show atOffice _ s = _
  unfold atOffice
  rw [Office.remove_run own]
  unfold Registry.remove
  rw [held]
  rfl

lemma attempt_giveRide_run (s : Session ScheduledFleet) (now : Time) (c : Confirmation) :
    (attempt (giveRide now c) : EStateM ε _ _).run s =
    match s.outcome now c with
    | .ok fleet => .ok (.ok ()) { s with fleet := fleet }
    | .error refusal => .ok (.error refusal) s := by
  show attempt _ s = _
  unfold attempt
  rw [giveRide_run]
  cases s.outcome now c <;> rfl

lemma consume_run (now : Time) (own : ∀ c, s.state.registry.get? id = some c → c.id = id) :
    (consumeInPlace now id : EStateM ε _ _).run s = .ok (s.consume now id).1 (s.consume now id).2 := by
  unfold consumeInPlace consume
  cases found : s.state.registry.get? id with
  | none => simp [found]
  | some c =>
    obtain rfl := own c found
    have held : s.state.registry.Holds c := found
    have judged := attempt_giveRide_run (ε := ε) s now c
    cases outcome : s.outcome now c with
    | error refusal =>
      rw [outcome] at judged
      simp only [EStateM.run_bind, EStateM.run_get, EStateM.run_modify, EStateM.run_pure, found, judged, outcome,
        atOffice_remove now held]
    | ok fleet =>
      rw [outcome] at judged
      have closed := atOffice_remove (ε := ε) (s := { s with fleet := fleet }) now held
      simp only [EStateM.run_bind, EStateM.run_get, EStateM.run_modify, EStateM.run_pure, found, judged, outcome,
        closed]
      rfl

lemma open_run : (openInPlace now p).run s =
    match s.openConfirmation now p with
    | .ok (placement, s') => .ok placement s'
    | .error e => .error e s := by
  unfold openInPlace openConfirmation
  cases queued : s.state.queue.get? p.request with
  | none =>
    simp only [EStateM.run_bind, EStateM.run_get, EStateM.run_modify, EStateM.run_pure, queued]
  | some request =>
    have asked := atOffice_add s request p.vehicle p.pickup now
    cases added : s.state.registry.add request p.vehicle p.pickup now with
    | error e =>
      rw [added] at asked
      simp [queued, asked, added]
    | ok opened =>
      obtain ⟨c, event, registry⟩ := opened
      rw [added] at asked
      by_cases complete : c.complete = true
      · have own : ∀ c', (s.opened event registry).state.registry.get? c.id = some c' → c'.id = c.id := by
          intro c' found
          rw [← Option.some.inj ((holds_opened added).symm.trans found)]
        have consumed := consume_run (ε := DispatchError) now own
        simp only [EStateM.run_bind, EStateM.run_get, EStateM.run_modify, queued, asked, added, complete, if_true]
        exact consumed
      · simp only [EStateM.run_bind, EStateM.run_get, EStateM.run_modify, EStateM.run_pure, queued, asked, added,
          complete, Bool.false_eq_true, if_false]
        rfl

end Session

end RideDispatch

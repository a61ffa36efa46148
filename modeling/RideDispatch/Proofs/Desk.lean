import RideDispatch.Proofs.Moves
import RideDispatch.Proofs.Service

/-!
# Desks and what they offer

A `Desk` is a dispatcher with the fleet it works for, of any kind. Between cycles the fleet may change on its
own account. Over a fleet with schedules that changes only by its own operations
(`ScheduledFleet.Change`), a desk offers a driver only what can be served at that moment, and gives a vehicle
only rides that can (`Session.Valid`): the main statement is `Desk.only_valid`. It rests on two facts about
cycles. A pairing is made of a request that is looked up at that moment and of a vehicle that is in service
wherever the cycle has found it (`Supplied.serves`), and a confirmation that is consumed is checked once more
(`Session.Step.committed_inv`).
-/

namespace RideDispatch

/-- A dispatcher with the fleet it works for. -/
structure Desk (φ : Type) where
  dispatcher : Dispatcher
  fleet : φ

namespace Desk

/-- What a desk can be asked to do. -/
inductive Order (φ : Type) where
  | submit (request : Request)
  | withdraw (id : RequestId) (now : Time)
  | cycle (ctx : CycleContext)
  /-- The fleet changes on its own account. -/
  | fleet (change : φ → φ)

/-- What a desk gives back. -/
inductive Reply where
  | done
  /-- The request that is handed back, if there is one, and what the world is told. -/
  | withdrawn (request : Option Request) (events : List ConfirmationEvent)
  /-- The report of a cycle and what the world is told. -/
  | cycled (report : Except DispatchError CycleReport) (events : List ConfirmationEvent) (astray : Bool)

variable {φ : Type} [Fleet φ]

/-- The desk after an order, and its reply. -/
def answer (desk : Desk φ) : Order φ → Desk φ × Reply
  | .submit request => ({ desk with dispatcher := desk.dispatcher.submit request }, .done)
  | .withdraw id now =>
    match desk.dispatcher.withdraw id now with
    | none => (desk, .withdrawn none [])
    | some w => ({ desk with dispatcher := w.dispatcher }, .withdrawn (some w.request) w.events)
  | .cycle ctx =>
    let result := desk.dispatcher.runCycle ctx desk.fleet
    (⟨result.dispatcher, result.fleet⟩, .cycled result.report result.events result.astray)
  | .fleet change => ({ desk with fleet := change desk.fleet }, .done)

/-- The desk after several orders, and its replies. -/
def serve (desk : Desk φ) : List (Order φ) → Desk φ × List Reply
  | [] => (desk, [])
  | order :: rest =>
    let (next, reply) := desk.answer order
    let (final, replies) := next.serve rest
    (final, reply :: replies)

end Desk

/-- What a fleet can do on its own account. -/
inductive ScheduledFleet.Change : (ScheduledFleet → ScheduledFleet) → Prop
  | addVehicle (id : VehicleId) (place : Place) (serviceBegin serviceEnd : Time) :
    Change fun f => (f.addVehicle id place serviceBegin serviceEnd).toOption.getD f
  | commit (id : VehicleId) (request : Request) (pickup : Route) (now : Time) :
    Change fun f => (f.commit id request pickup now).toOption.getD f
  | advance (id : VehicleId) (now : Time) : Change fun f => (f.advance id now).2
  | takeWakeups : Change fun f => f.takeWakeups.2

/-- No vehicle leaves a fleet. -/
lemma ScheduledFleet.Change.isSome {change : ScheduledFleet → ScheduledFleet} (h : Change change)
    {f : ScheduledFleet} {v : VehicleId} (known : (f.vehicle? v).isSome = true) :
    ((change f).vehicle? v).isSome = true := by
  cases h with
  | addVehicle id place serviceBegin serviceEnd =>
    cases added : f.addVehicle id place serviceBegin serviceEnd with
    | error e => simpa [added, Except.toOption] using known
    | ok f' => simpa [added, Except.toOption] using isSome_addVehicle added known
  | commit id request pickup now =>
    cases committed : f.commit id request pickup now with
    | error e => simpa [committed, Except.toOption] using known
    | ok f' => simpa [committed, Except.toOption] using isSome_commit committed known
  | advance id now => exact isSome_advance known
  | takeWakeups => exact known

namespace Session

variable {φ : Type} [Fleet φ] {s s' : Session φ} {now : Time}

/-- The request is queued and has not expired, and the vehicle is in service. -/
structure Valid (s : Session φ) (now : Time) (request : RequestId) (vehicle : VehicleId) : Prop where
  wants : s.state.Wants request now
  serves : Fleet.isOutOfService s.fleet vehicle now = false

lemma Step.committed_prefix (step : Step now s s') : s.report.committed <+: s'.report.committed := by
  cases step with
  | sync => exact List.prefix_rfl
  | attempts => exact List.prefix_rfl
  | tally same => exact same ▸ List.prefix_rfl
  | note => exact List.prefix_rfl
  | opens => exact List.prefix_rfl
  | commits => exact List.prefix_append _ _
  | drops => exact List.prefix_rfl

/-- A ride is reported by a step that gives a valid ride. -/
lemma Step.committed_inv {pre post : List CommittedRide} {ride : CommittedRide} (step : Step now s s')
    (more : s'.report.committed = s.report.committed ++ (pre ++ ride :: post)) :
    pre = [] ∧ s.Valid now ride.request ride.vehicle := by
  have rides : s'.report.committed ≠ s.report.committed := by
    rw [more]
    simp
  cases step with
  | sync => exact absurd rfl rides
  | attempts => exact absurd rfl rides
  | tally same => exact absurd same rides
  | note => exact absurd rfl rides
  | opens => exact absurd rfl rides
  | drops => exact absurd rfl rides
  | @commits c fleet held complete outcome =>
    obtain ⟨_, serves, request, queued, inTime, _⟩ := outcome_eq_ok outcome
    have all : [⟨c.request, c.passenger, c.vehicle⟩] = pre ++ ride :: post := List.append_cancel_left more
    rcases List.append_eq_singleton_iff.mp all.symm with ⟨none_, one⟩ | ⟨_, none_⟩
    · obtain ⟨rfl, _⟩ := List.cons.inj one
      exact ⟨none_, ⟨request, queued, inTime⟩, serves⟩
    · cases none_

end Session

/-- A pairing that a cycle offers is valid. -/
lemma Dispatcher.valid_of_offers {d : Dispatcher} {fleet : ScheduledFleet} {ctx : CycleContext}
    {s : Session ScheduledFleet} {p : Pairing} (inLine : s.InLine ctx.now)
    (offered : d.Offers ctx fleet s p) : s.Valid ctx.now p.request p.vehicle := by
  obtain ⟨r, e, fits⟩ := offered
  obtain ⟨x, found, serves, _⟩ := fits.supplied.serves inLine
  refine ⟨⟨r, fits.queued, fits.inTime⟩, ?_⟩
  rw [← fits.vehicle, ← serves]
  exact ScheduledFleet.isOutOfService_of_found found

namespace Desk

/-- A desk whose dispatcher knows of nothing yet. -/
def fresh {φ : Type} (settings : Settings) (resolution : Resolution) (fleet : φ) : Desk φ :=
  ⟨.fresh settings resolution, fleet⟩

/-- The state is sound, and only vehicles of the fleet are indexed. -/
structure Ready (desk : Desk ScheduledFleet) : Prop where
  sound : desk.dispatcher.state.Sound
  covered : desk.dispatcher.state.zones.Covered desk.fleet

variable {desk : Desk ScheduledFleet} {order : Order ScheduledFleet} {orders : List (Order ScheduledFleet)}

lemma Ready.fresh (settings : Settings) (resolution : Resolution) (fleet : ScheduledFleet) :
    (Desk.fresh settings resolution fleet).Ready where
  sound := .empty _ _
  covered := by
    intro v member
    have absent : (Zones.empty resolution).vehicles.contains v = false := ZoneMap.contains_empty
    exact absurd (absent.symm.trans member) Bool.false_ne_true

lemma Ready.answer (h : desk.Ready)
    (changes : ∀ change, order = .fleet change → ScheduledFleet.Change change) :
    (desk.answer order).1.Ready := by
  cases order with
  | submit request => exact ⟨Dispatcher.submit_sound h.sound, h.covered⟩
  | withdraw id now =>
    simp only [Desk.answer]
    cases gone : desk.dispatcher.withdraw id now with
    | none => exact h
    | some w =>
      exact ⟨Dispatcher.withdraw_sound h.sound gone, Dispatcher.withdraw_covered h.sound h.covered gone⟩
  | cycle ctx =>
    exact ⟨Dispatcher.runCycle_sound h.sound, Dispatcher.runCycle_covered h.sound h.covered⟩
  | fleet change =>
    refine ⟨h.sound, ?_⟩
    intro v member
    exact (changes change rfl).isSome (h.covered v member)

lemma Ready.serve (h : desk.Ready)
    (changes : ∀ change, .fleet change ∈ orders → ScheduledFleet.Change change) :
    (desk.serve orders).1.Ready := by
  induction orders generalizing desk with
  | nil => exact h
  | cons order rest ih =>
    refine ih (h.answer ?_) fun change member => changes change (List.mem_cons_of_mem _ member)
    rintro change rfl
    exact changes change List.mem_cons_self

/-- In whatever order requests have been submitted and given up, cycles have been run and the fleet has done
what it can do, over any fleet and with any settings: at the moment at which a cycle opens a confirmation,
its request is queued, in time and free, and its vehicle is in service and free; and at the moment at which
it commits a ride, the request is still queued and in time and the vehicle is in service. -/
theorem only_valid (settings : Settings) (resolution : Resolution) (first : ScheduledFleet)
    (orders : List (Order ScheduledFleet)) (ctx : CycleContext)
    (changes : ∀ change, .fleet change ∈ orders → ScheduledFleet.Change change) :
    let desk := ((fresh settings resolution first).serve orders).1
    let result := desk.dispatcher.runCycle ctx desk.fleet
    ∃ report, result.report = .ok report ∧
      (∀ earlier opening later, result.events = earlier ++ opening :: later →
        opening.stage = .created → opening.time = ctx.now ∧
          ∃ s, desk.dispatcher.Amid ctx desk.fleet s ∧ s.events = earlier ∧
            s.Valid ctx.now opening.request opening.vehicle ∧
            s.state.registry.isWaitingRequest opening.request = false ∧
            s.state.registry.isWaitingVehicle opening.vehicle = false) ∧
      ∀ earlier ride later, report.committed = earlier ++ ride :: later →
        ∃ s, desk.dispatcher.Amid ctx desk.fleet s ∧ s.report.committed = earlier ∧
          s.Valid ctx.now ride.request ride.vehicle := by
  intro desk result
  obtain ⟨sound, covered⟩ : desk.Ready := (Ready.fresh settings resolution first).serve changes
  refine ⟨_, Dispatcher.runCycle_report ctx desk.fleet sound ScheduledFleet.nodup_vehicleIds, ?_, ?_⟩
  · intro earlier opening later told created
    obtain ⟨s, s', p, c, before, after, offered, opens, rfl, rfl, outcome⟩ :=
      Dispatcher.exists_opening sound told created
    have steps := before.steps
    have soundHere := Session.Steps.sound steps (Dispatcher.synced_sound sound)
    have inLine := Session.Steps.inLine steps (Dispatcher.synced_inLine covered)
    obtain ⟨request, vehicle, _⟩ := opens.ends soundHere
    have asks : Session.Steps ctx.now s s' := by
      rcases outcome with ⟨_, rfl⟩ | ⟨complete, rfl⟩
      · exact .single opens.step
      · exact .head opens.step (Session.consume_steps opens.holds complete)
    refine ⟨opens.timed.1, s, ⟨.head .sync steps, asks.trans after.steps⟩, rfl, ?_,
      opens.admits.request, opens.admits.vehicle⟩
    show s.Valid ctx.now c.request c.vehicle
    rw [request, vehicle]
    exact Dispatcher.valid_of_offers inLine offered
  · intro earlier ride later told
    obtain ⟨s, s', pre, post, before, step, after, same, more⟩ := exists_step_adding
      (fun s : Session ScheduledFleet => s.report.committed) (fun _ _ => Session.Step.committed_prefix)
      (Dispatcher.pass_steps sound) rfl told
    obtain ⟨rfl, valid⟩ := step.committed_inv more
    exact ⟨s, ⟨before, .head step after⟩, by rw [same, List.append_nil], valid⟩

/-- A vehicle joins the fleet, and a request comes. -/
def oneRequest : List (Order ScheduledFleet) :=
  [.fleet fun f => (f.addVehicle ⟨7⟩ (.onDiagonal 1) 0 .never).toOption.getD f,
    .submit (.immediate ⟨1⟩ ⟨11⟩ (.onDiagonal 2) (.onDiagonal 3) 0 none)]

theorem only_valid_oneRequest :
    let desk := ((fresh {} 9 (.empty Service.steadyRouter ⟨120⟩ ⟨60⟩)).serve oneRequest).1
    (∀ change, .fleet change ∈ oneRequest → ScheduledFleet.Change change) ∧
      ∃ s, desk.dispatcher.Amid ⟨0, Service.steadyRouter⟩ desk.fleet s ∧ s.events = [] ∧
        s.Valid 0 ⟨1⟩ ⟨7⟩ := by
  intro desk
  have changes : ∀ change, .fleet change ∈ oneRequest → ScheduledFleet.Change change := by
    intro change member
    rcases List.mem_cons.mp member with first | second
    · cases first
      exact .addVehicle _ _ _ _
    · cases List.mem_singleton.mp second
  have told : (desk.dispatcher.runCycle ⟨0, Service.steadyRouter⟩ desk.fleet).events =
      [] ++ ⟨0, ⟨1⟩, ⟨11⟩, ⟨7⟩, .created⟩ :: [⟨0, ⟨1⟩, ⟨11⟩, ⟨7⟩, .completed true⟩] := by decide +kernel
  obtain ⟨_, _, opened, _⟩ := only_valid {} 9 (.empty Service.steadyRouter ⟨120⟩ ⟨60⟩) oneRequest
    ⟨0, Service.steadyRouter⟩ changes
  obtain ⟨_, s, amid, none_, valid, _⟩ := opened _ _ _ told rfl
  exact ⟨changes, s, amid, none_, valid⟩

end Desk

end RideDispatch

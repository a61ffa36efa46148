import RideDispatch.Proofs.Backing
import RideDispatch.Proofs.Unmatched

/-!
# Why rides are refused

A confirmation can be dropped for five reasons (`Session.RefusedFor`), and a fleet can refuse a ride for
three more (`ScheduledFleet.commit_eq_error`). Most of them do not occur in a service. A driver who has been
asked accepts, and a request with a confirmation is queued, which is what it means to be backed. And a ride
that a vehicle is asked for begins while it serves: the confirmation is `Timely` when it is opened, and it
stays so as nothing else is given to the vehicle meanwhile. So a vehicle may have left service in the
meantime and a request may have expired, but what the fleet refuses is a ride for which it knows no way
(`Service.drop_reasons`). Where drivers answer at once there is no meantime (`Session.Prompt`).
-/

namespace RideDispatch

/-- A route that is found is left when it was asked to be. -/
def Router.KeepsDepartures (r : Router) : Prop :=
  ∀ origin target departure route, r.route? origin target departure = some route →
    route.departure = departure

/-- Inversion for a ride that is refused. -/
lemma ScheduledFleet.commit_eq_error {f : ScheduledFleet} {id : VehicleId} {request : Request}
    {pickup : Route} {now : Time} {e : CommitError} (h : f.commit id request pickup now = .error e) :
    (f.vehicle? id = none ∧ e = .unknownVehicle id) ∨ ∃ x, f.vehicle? id = some x ∧
      let start := max (max pickup.departure now) x.busyUntil
      (x.serviceEnd ≤ start ∧ e = .serviceEnded id x.serviceEnd) ∨
        (f.router.route? request.origin request.destination
          (start + pickup.travelTime + f.pickupDuration) = none ∧ e = f.wayError request) := by
  unfold commit at h
  split at h
  · rename_i unknown
    cases h
    exact .inl ⟨unknown, rfl⟩
  · rename_i x found
    refine .inr ⟨x, found, ?_⟩
    simp only at h
    split at h
    · rename_i late
      cases h
      exact .inl ⟨late, rfl⟩
    · split at h
      · rename_i wayless
        cases h
        exact .inr ⟨wayless, rfl⟩
      · cases h

namespace Session

section Drops

variable {φ : Type} [Fleet φ] {s s' : Session φ} {now : Time} {c : Confirmation}
variable {fit : Session φ → Pairing → Prop} {id : RequestId} {reason : DropReason}

/-- What speaks against a ride, for each reason. -/
inductive RefusedFor (s : Session φ) (now : Time) (c : Confirmation) : DropReason → Prop
  | refused :
    c.accepted = false →
    RefusedFor s now c .refused
  | outOfService :
    Fleet.isOutOfService s.fleet c.vehicle now = true →
    RefusedFor s now c .outOfService
  | notUnplanned :
    s.state.queue.get? c.request = none →
    RefusedFor s now c .notUnplanned
  | expired {r : Request} :
    s.state.queue.get? c.request = some r →
    r.isExpired now = true →
    RefusedFor s now c .expired
  | commitFailed {r : Request} {e : CommitError} :
    Fleet.isOutOfService s.fleet c.vehicle now = false →
    s.state.queue.get? c.request = some r →
    Fleet.commit s.fleet c.vehicle r (c.pickup.retimed now) now = .error e →
    RefusedFor s now c .commitFailed

/-- Inversion for a confirmation that comes to nothing. -/
lemma refusedFor_of_outcome {refusal : Refusal} (h : s.outcome now c = .error refusal) :
    s.RefusedFor now c refusal.reason := by
  unfold outcome at h
  split at h
  · rename_i refused
    cases h
    rw [Bool.not_eq_true'] at refused
    exact .refused refused
  · split at h
    · rename_i away
      cases h
      exact .outOfService away
    · rename_i serves
      split at h
      · rename_i absent
        cases h
        exact .notUnplanned absent
      · rename_i r queued
        split at h
        · rename_i late
          cases h
          exact .expired queued late
        · split at h
          · cases h
          · rename_i e failed
            cases h
            rw [reason_ofCommitError]
            exact .commitFailed (Bool.not_eq_true _ ▸ serves) queued failed

/-- A complete confirmation of a request is dropped for a reason. -/
structure Drops (s : Session φ) (now : Time) (c : Confirmation) (id : RequestId) (reason : DropReason) :
    Prop where
  held : s.state.registry.Holds c
  complete : c.complete = true
  request : c.request = id
  refused : s.RefusedFor now c reason

lemma consume_drops {pre post : List (RequestId × DropReason)} (held : s.state.registry.Holds c)
    (complete : c.complete = true)
    (dropped : (s.consume now c.id).2.report.dropped = s.report.dropped ++ (pre ++ (id, reason) :: post)) :
    pre = [] ∧ s.Drops now c id reason := by
  cases outcome : s.outcome now c with
  | ok fleet =>
    rw [consume_of_ok held outcome] at dropped
    have nothing : s.report.dropped = s.report.dropped ++ (pre ++ (id, reason) :: post) := dropped
    simp at nothing
  | error refusal =>
    rw [consume_of_error held outcome] at dropped
    have one : [(c.request, refusal.reason)] = pre ++ (id, reason) :: post := List.append_cancel_left dropped
    cases pre with
    | nil =>
      cases one
      exact ⟨rfl, held, complete, rfl, refusedFor_of_outcome outcome⟩
    | cons => simp at one

/-- A move drops one request at most: one whose confirmation it consumes, be it held before or opened by the
move itself. -/
lemma Move.dropped_inv {pre post : List (RequestId × DropReason)} (move : Move fit now s s')
    (dropped : s'.report.dropped = s.report.dropped ++ (pre ++ (id, reason) :: post)) :
    pre = [] ∧ ∃ t c, Steps now s t ∧ Steps now t s' ∧ t.Drops now c id reason ∧
      t.report.dropped = s.report.dropped ∧
      (t = s ∨ ∃ p, fit s p ∧ s.Opens now p c ∧ t = s.asking c) := by
  have loud : s'.report.dropped ≠ s.report.dropped := by
    rw [dropped]
    simp
  cases move with
  | sync => exact absurd rfl loud
  | attempts => exact absurd rfl loud
  | tally _ same => exact absurd same loud
  | note => exact absurd rfl loud
  | asks => exact absurd rfl loud
  | settles held complete =>
    obtain ⟨none_, drops⟩ := consume_drops held complete dropped
    exact ⟨none_, s, _, .refl, consume_steps held complete, drops, rfl, .inl rfl⟩
  | @takes p c fits opens complete =>
    obtain ⟨none_, drops⟩ := consume_drops opens.holds complete dropped
    exact ⟨none_, s.asking c, c, .single opens.step, consume_steps opens.holds complete, drops, rfl,
      .inr ⟨p, fits, opens, rfl⟩⟩

end Drops

/-! ## Answers at once -/

/-- Drivers answer at once: no confirmation is held, and every one that has been opened is a ride or
dropped. -/
structure Prompt {φ : Type} (s : Session φ) : Prop where
  delay : s.state.registry.delay = 0
  vacant : ∀ c, ¬ s.state.registry.Holds c
  tallied : s.report.opened = s.report.committed.length + s.report.dropped.length

lemma Prompt.complete {φ : Type} {s : Session φ} {now : Time} {c : Confirmation} {p : Pairing}
    (h : s.Prompt) (opens : s.Opens now p c) : c.complete = true := by
  obtain ⟨_, dueAt, complete⟩ := opens.timed
  rw [complete, dueAt, h.delay, Time.le_iff, Time.toNat_add, Time.toNat_zero]
  exact Nat.min_le_left _ _

section Prompt

variable {φ : Type} [Fleet φ] {s s' : Session φ} {now : Time} {c : Confirmation}
variable {fit : Session φ → Pairing → Prop}

lemma Step.delay (step : Step now s s') : s'.state.registry.delay = s.state.registry.delay := by
  cases step with
  | opens _ added =>
    obtain ⟨_, _, _, rfl⟩ := Registry.add_eq_ok added
    rfl
  | _ => rfl

lemma Steps.delay (steps : Steps now s s') : s'.state.registry.delay = s.state.registry.delay := by
  induction steps with
  | refl => rfl
  | tail _ step ih => exact step.delay.trans ih

lemma Move.prompt (move : Move fit now s s') (sound : s.state.Sound) (h : s.Prompt) : s'.Prompt := by
  have delay : s'.state.registry.delay = 0 := (Steps.delay move.steps).trans h.delay
  cases move with
  | sync => exact ⟨delay, h.vacant, h.tallied⟩
  | attempts => exact ⟨delay, h.vacant, h.tallied⟩
  | note => exact ⟨delay, h.vacant, h.tallied⟩
  | tally committed dropped opened =>
    refine ⟨delay, h.vacant, ?_⟩
    rw [committed, dropped, opened]
    exact h.tallied
  | settles held => exact absurd held (h.vacant _)
  | asks _ opens pending =>
    rw [h.complete opens] at pending
    cases pending
  | @takes p c _ opens =>
    refine ⟨delay, ?_, ?_⟩
    · intro c' held
      obtain ⟨asked, other⟩ := (holds_consume (opens.step.sound sound)).mp held
      rcases (Registry.holds_register sound.registry opens.admits).mp asked with rfl | before
      · exact other rfl
      · exact h.vacant c' before
    · have concluded : (s.asking c).report.Concludes c.createdEvent
          ((s.asking c).consume now c.id).2.report := consume_concludes opens.holds
      rw [consume_counts.1]
      show s.report.opened + 1 = _
      rw [h.tallied]
      cases concluded with
      | ride committed dropped =>
        rw [committed, dropped, List.length_append]
        exact Nat.add_right_comm _ _ 1
      | drop _ committed dropped =>
        rw [committed, dropped, List.length_append]
        rfl

lemma Moves.prompt (moves : Moves fit now s s') (sound : s.state.Sound) (h : s.Prompt) : s'.Prompt := by
  induction moves with
  | refl => exact h
  | tail before move ih => exact move.prompt (Moves.sound before sound) ih

end Prompt

end Session

/-! ## Rides in the time of service -/

/-- A ride of a vehicle, left as planned or when the vehicle is done, begins before its service ends. -/
def Confirmation.Timely (c : Confirmation) (x : Vehicle) : Prop :=
  ¬ x.serviceEnd ≤ max c.pickup.departure x.busyUntil

lemma Confirmation.Timely.retire {c : Confirmation} {x : Vehicle} (h : c.Timely x) (now : Time) :
    c.Timely (x.retire now).2 := by
  have busy := x.busyUntil_retire_le now
  have same : (x.retire now).2.serviceEnd = x.serviceEnd := rfl
  unfold Timely at *
  rw [same]
  simp only [Time.le_iff, Time.toNat_max] at *
  omega

namespace Session

variable {s s' : Session ScheduledFleet} {now : Time} {c : Confirmation} {p : Pairing} {router : Router}

/-- The request of a confirmation that is held is queued, and a ride for it is refused because there is no
way from where it is to where it goes. -/
def Wayless (s : Session ScheduledFleet) (now : Time) (router : Router) (id : RequestId) : Prop :=
  ∃ c r x, s.state.registry.Holds c ∧ c.request = id ∧ s.state.queue.get? id = some r ∧
    s.fleet.vehicle? c.vehicle = some x ∧
    s.fleet.commit c.vehicle r (c.pickup.retimed now) now = .error (s.fleet.wayError r) ∧
    router.route? r.origin r.destination (max (max c.pickup.departure now) x.busyUntil +
      c.pickup.travelTime + s.fleet.pickupDuration) = none

lemma Step.router_eq (step : Step now s s') : s'.fleet.router = s.fleet.router := by
  cases step with
  | commits _ _ outcome =>
    obtain ⟨_, _, _, _, _, committed⟩ := outcome_eq_ok outcome
    obtain ⟨_, _, _, _, _, _, _, rfl⟩ := ScheduledFleet.commit_eq_ok committed
    rfl
  | _ => rfl

lemma Steps.router_eq (steps : Steps now s s') : s'.fleet.router = s.fleet.router := by
  induction steps with
  | refl => rfl
  | tail _ step ih => exact step.router_eq.trans ih

/-- The index is in line, and the confirmations that are held are timely. -/
structure Punctual (router : Router) (now : Time) (s : Session ScheduledFleet) : Prop where
  sound : s.state.Sound
  inLine : s.InLine now
  timely : s.state.Backed s.fleet fun c _ x => c.Timely x
  router_eq : s.fleet.router = router

namespace Punctual

variable {d : Dispatcher} {ctx : CycleContext} {fleet : ScheduledFleet}

lemma of_steps (h : s.Punctual router now) (steps : Steps now s s')
    (timely : s'.state.Backed s'.fleet fun c _ x => c.Timely x) : s'.Punctual router now where
  sound := Steps.sound steps h.sound
  inLine := Steps.inLine steps h.inLine
  timely := timely
  router_eq := (Steps.router_eq steps).trans h.router_eq

/-- The way of a pairing is left when the vehicle is free, which is while it serves. -/
lemma asking (h : s.Punctual router ctx.now) (keeps : ctx.router.KeepsDepartures)
    (offered : d.Offers ctx fleet s p) (opens : s.Opens ctx.now p c) :
    (s.asking c).Punctual router ctx.now := by
  apply h.of_steps (.single opens.step)
  refine h.timely.asking h.sound opens ?_
  intro r queued
  obtain ⟨r', e, fits⟩ := offered
  obtain ⟨x, found, _, free, serves⟩ := fits.supplied.serves h.inLine
  refine ⟨x, fits.vehicle ▸ found, ?_⟩
  unfold Confirmation.Timely
  rw [(opens.ends h.sound).2.2, keeps _ _ _ _ fits.way, free]
  unfold Vehicle.availableAt at *
  rw [Time.le_iff] at *
  simp only [Time.toNat_max] at *
  omega

lemma move (h : s.Punctual router ctx.now) (keeps : ctx.router.KeepsDepartures)
    (move : Move (d.Offers ctx fleet) ctx.now s s') : s'.Punctual router ctx.now := by
  apply h.of_steps move.steps
  cases move with
  | sync => exact h.timely
  | attempts ids => exact h.timely.attempts ids fun _ _ _ _ timely => timely
  | tally => exact h.timely
  | note => exact h.timely
  | settles held => exact h.timely.consume h.sound held
  | asks fits opens => exact (h.asking keeps fits opens).timely
  | takes fits opens =>
    have asked := h.asking keeps fits opens
    exact asked.timely.consume asked.sound opens.holds

lemma moves (h : s.Punctual router ctx.now) (keeps : ctx.router.KeepsDepartures)
    (moves : Moves (d.Offers ctx fleet) ctx.now s s') : s'.Punctual router ctx.now := by
  induction moves with
  | refl => exact h
  | tail _ move ih => exact ih.move keeps move

/-- Of the reasons for a drop two do not occur, and the fleet refuses a ride only if it knows no way. -/
lemma reasons {id : RequestId} {reason : DropReason} (h : s.Punctual router now)
    (drops : s.Drops now c id reason) : reason ≠ .refused ∧ reason ≠ .notUnplanned ∧
      (reason = .commitFailed → s.Wayless now router id) := by
  obtain ⟨held, complete, rfl, refused⟩ := drops
  obtain ⟨r, x, queued, found, timely⟩ := h.timely c held
  cases refused with
  | refused rejected =>
    rw [h.sound.registry.accepted held, complete] at rejected
    cases rejected
  | notUnplanned absent =>
    rw [queued] at absent
    cases absent
  | outOfService => exact ⟨nofun, nofun, nofun⟩
  | expired => exact ⟨nofun, nofun, nofun⟩
  | @commitFailed r' e serves queued' failed =>
    refine ⟨nofun, nofun, fun _ => ⟨c, r, x, held, rfl, queued, found, ?_⟩⟩
    obtain rfl : r = r' := Option.some.inj (queued.symm.trans queued')
    rcases ScheduledFleet.commit_eq_error failed with ⟨unknown, _⟩ | ⟨x', found', refusal⟩
    · rw [found] at unknown
      cases unknown
    · obtain rfl : x = x' := Option.some.inj (found.symm.trans found')
      have begins : max (max (c.pickup.retimed now).departure now) x.busyUntil =
          max (max c.pickup.departure now) x.busyUntil := by
        apply Time.ext
        show (max (max (max c.pickup.departure now) now) x.busyUntil).toNat = _
        simp only [Time.toNat_max]
        omega
      rw [begins] at refusal
      rcases refusal with ⟨late, _⟩ | ⟨wayless, rfl⟩
      · -- the vehicle still serves, and the ride is timely
        replace serves : s.fleet.isOutOfService c.vehicle now = false := serves
        rw [ScheduledFleet.isOutOfService_of_found found] at serves
        unfold Vehicle.isOutOfService at serves
        unfold Confirmation.Timely at timely
        simp only [decide_eq_false_iff_not, not_or, Time.lt_iff, Time.le_iff, Time.toNat_max] at *
        omega
      · rw [h.router_eq] at wayless
        exact ⟨failed, wayless⟩

end Punctual

/-- What is dropped at once has been refused by the fleet. -/
lemma Prompt.reason {d : Dispatcher} {ctx : CycleContext} {fleet : ScheduledFleet} {id : RequestId}
    {reason : DropReason} (h : s.Prompt) (sound : s.state.Sound) (inLine : s.InLine ctx.now)
    (offered : d.Offers ctx fleet s p) (opens : s.Opens ctx.now p c)
    (drops : (s.asking c).Drops ctx.now c id reason) : reason = .commitFailed := by
  obtain ⟨r, e, fits⟩ := offered
  obtain ⟨request, vehicle, _⟩ := opens.ends sound
  have queued : s.state.queue.get? c.request = some r := request ▸ fits.queued
  cases drops.refused with
  | refused rejected =>
    rw [opens.admits.accepted, h.complete opens] at rejected
    cases rejected
  | outOfService away =>
    obtain ⟨x, found, serves, _⟩ := fits.supplied.serves inLine
    rw [fits.vehicle, ← vehicle] at found
    replace away : s.fleet.isOutOfService c.vehicle ctx.now = true := away
    rw [ScheduledFleet.isOutOfService_of_found found, serves] at away
    cases away
  | notUnplanned absent =>
    replace absent : s.state.queue.get? c.request = none := absent
    rw [queued] at absent
    cases absent
  | @expired r' queued' late =>
    obtain rfl : r = r' := Option.some.inj (queued.symm.trans queued')
    rw [fits.inTime] at late
    cases late
  | commitFailed => rfl

end Session

/-! ## Services -/

namespace Service

variable {s : Service} {errand : Errand} {errands : List Errand} {router : Router} {ctx : CycleContext}

/-- The confirmations that are held are timely, and there are none if drivers answer at once. -/
structure Punctual (router : Router) (s : Service) : Prop where
  ready : s.Ready
  timely : s.dispatcher.state.Backed s.fleet fun c _ x => c.Timely x
  router_eq : s.fleet.router = router
  delay_eq : s.dispatcher.state.registry.delay = s.dispatcher.settings.confirmationDelay
  vacant : s.dispatcher.settings.confirmationDelay = 0 → ∀ c, ¬ s.dispatcher.state.registry.Holds c

namespace Punctual

lemma fresh {settings : Settings} {resolution : Resolution} {pickupDuration dropoffDuration : Time} :
    (Service.fresh settings resolution router pickupDuration dropoffDuration).Punctual router where
  ready := .fresh
  timely _ held := (Registry.not_holds_empty held).elim
  router_eq := rfl
  delay_eq := rfl
  vacant _ _ := Registry.not_holds_empty

lemma synced (h : s.Punctual router) (now : Time) :
    (s.dispatcher.synced now s.fleet).Punctual router now where
  sound := Dispatcher.synced_sound h.ready.sound
  inLine := Dispatcher.synced_inLine h.ready.covered
  router_eq := h.router_eq
  timely := by
    refine DispatchState.Backed.begin h.timely ?_
    intro c r x timely
    unfold Confirmation.Timely
    rw [Confirmation.pickup_tick]
    exact timely

lemma pass (h : s.Punctual router) (keeps : ctx.router.KeepsDepartures) :
    (s.dispatcher.pass ctx s.fleet).session.Punctual router ctx.now :=
  (h.synced ctx.now).moves keeps (Dispatcher.synced_moves ctx s.fleet h.ready.sound)

lemma prompt_synced (h : s.Punctual router) (now : Time)
    (atOnce : s.dispatcher.settings.confirmationDelay = 0) :
    (s.dispatcher.synced now s.fleet).Prompt where
  delay := h.delay_eq.trans atOnce
  vacant := by
    intro c held
    obtain ⟨c', before, _⟩ := Registry.holds_tick.mp held
    exact h.vacant atOnce c' before
  tallied := rfl

lemma prompt_pass (h : s.Punctual router) (ctx : CycleContext)
    (atOnce : s.dispatcher.settings.confirmationDelay = 0) :
    (s.dispatcher.pass ctx s.fleet).session.Prompt :=
  Session.Moves.prompt (Dispatcher.synced_moves ctx s.fleet h.ready.sound)
    (Dispatcher.synced_sound h.ready.sound) (h.prompt_synced ctx.now atOnce)

lemma act (h : s.Punctual router) (keeps : ∀ ctx, errand = .cycle ctx → ctx.router.KeepsDepartures) :
    (s.act errand).Punctual router := by
  have ready : (s.act errand).Ready := h.ready.act
  cases errand with
  | submit request =>
    refine ⟨ready, h.timely.submit ?_, h.router_eq, h.delay_eq, h.vacant⟩
    intro c r x _ _ timely
    exact timely
  | withdraw id now =>
    simp only [Service.act] at ready ⊢
    cases gone : s.dispatcher.withdraw id now with
    | none => exact h
    | some w =>
      rw [gone] at ready
      have timely := h.timely.withdraw h.ready.sound gone
      rw [Dispatcher.withdraw_eq h.ready.sound] at gone
      obtain ⟨request, _, rfl⟩ := Option.map_eq_some_iff.mp gone
      refine ⟨ready, timely, h.router_eq, (Registry.delay_release id).trans h.delay_eq, ?_⟩
      intro atOnce c held
      exact h.vacant atOnce c ((Registry.holds_release h.ready.sound.registry).mp held).1
  | cycle ctx =>
    have cycled := h.pass (keeps ctx rfl)
    simp only [Service.act, Dispatcher.runCycle_eq] at ready ⊢
    refine ⟨ready, cycled.timely, cycled.router_eq, ?_, fun atOnce => (h.prompt_pass ctx atOnce).vacant⟩
    exact (Session.Steps.delay (Dispatcher.pass_steps h.ready.sound)).trans h.delay_eq
  | advance v now =>
    refine ⟨ready, h.timely.advance fun _ _ _ timely => timely.retire now, ?_, h.delay_eq, h.vacant⟩
    show (s.fleet.advance v now).2.router = router
    unfold ScheduledFleet.advance
    split
    · exact h.router_eq
    · exact h.router_eq
  | addVehicle v place serviceBegin serviceEnd =>
    simp only [Service.act] at ready ⊢
    cases added : s.fleet.addVehicle v place serviceBegin serviceEnd with
    | error => exact h
    | ok fleet =>
      rw [added] at ready
      refine ⟨ready, h.timely.addVehicle added, ?_, h.delay_eq, h.vacant⟩
      obtain ⟨_, rfl⟩ := ScheduledFleet.addVehicle_eq_ok added
      exact h.router_eq

lemma run (h : s.Punctual router) (keep : ∀ ctx, .cycle ctx ∈ errands → ctx.router.KeepsDepartures) :
    (s.run errands).Punctual router := by
  induction errands generalizing s with
  | nil => exact h
  | cons errand rest ih =>
    refine ih (h.act ?_) fun ctx member => keep ctx (List.mem_cons_of_mem _ member)
    rintro ctx rfl
    exact keep ctx List.mem_cons_self

end Punctual

/-- Whatever a service has been asked to do before, as long as the routers of its cycles find routes that are
left when they were asked to be: the next cycle drops no request as refused or as not queued, and it drops
one as refused by the fleet only if at that moment the router of the fleet knows no way from where the
request is to where it goes. If drivers answer at once, this is the only reason; no confirmation is then
left after the cycle, and each of those that it has opened is a ride or has been dropped. -/
theorem drop_reasons (settings : Settings) (resolution : Resolution) (router : Router)
    (pickupDuration dropoffDuration : Time) (errands : List Errand) (ctx : CycleContext)
    (keep : ∀ ctx', .cycle ctx' ∈ .cycle ctx :: errands → ctx'.router.KeepsDepartures) :
    let s := (fresh settings resolution router pickupDuration dropoffDuration).run errands
    let result := s.dispatcher.runCycle ctx s.fleet
    ∃ report, result.report = .ok report ∧
      (∀ earlier id reason later, report.dropped = earlier ++ (id, reason) :: later →
        reason ≠ .refused ∧ reason ≠ .notUnplanned ∧
        (reason = .commitFailed → ∃ t, s.dispatcher.Amid ctx s.fleet t ∧ t.report.dropped = earlier ∧
          t.Wayless ctx.now router id) ∧
        (settings.confirmationDelay = 0 → reason = .commitFailed)) ∧
      (settings.confirmationDelay = 0 → result.dispatcher.state.registry.toList = [] ∧
        report.opened = report.committed.length + report.dropped.length) := by
  intro s result
  have keeps : ctx.router.KeepsDepartures := keep ctx List.mem_cons_self
  have h : s.Punctual router :=
    Punctual.fresh.run fun ctx' member => keep ctx' (List.mem_cons_of_mem _ member)
  have sound := h.ready.sound
  have same : s.dispatcher.settings = settings := settings_run
  have moves := Dispatcher.synced_moves ctx s.fleet sound
  refine ⟨_, Dispatcher.runCycle_report ctx s.fleet sound ScheduledFleet.nodup_vehicleIds, ?_, ?_⟩
  · intro earlier id reason later dropped
    obtain ⟨t, t', pre, post, first, move, rest, before, grown⟩ := exists_step_adding
      (fun t : Session ScheduledFleet => t.report.dropped)
      (fun _ _ move => (Session.Move.continues move).dropped) moves rfl dropped
    obtain ⟨rfl, u, c, reached, left, drops, log, origin⟩ := move.dropped_inv grown
    rw [List.append_nil] at before
    have here : t.Punctual router ctx.now := (h.synced ctx.now).moves keeps first
    have there : u.Punctual router ctx.now := by
      rcases origin with rfl | ⟨p, offered, opens, rfl⟩
      · exact here
      · exact here.asking keeps offered opens
    obtain ⟨accepted, queued, wayless⟩ := there.reasons drops
    refine ⟨accepted, queued, ?_, ?_⟩
    · intro failed
      refine ⟨u, ⟨?_, left.trans (Session.Moves.steps rest)⟩, log.trans before.symm, wayless failed⟩
      exact .head .sync ((Session.Moves.steps first).trans reached)
    · intro atOnce
      have prompt : t.Prompt := Session.Moves.prompt first (Dispatcher.synced_sound sound)
        (h.prompt_synced ctx.now (same ▸ atOnce))
      rcases origin with rfl | ⟨p, offered, opens, rfl⟩
      · exact absurd drops.held (prompt.vacant c)
      · exact prompt.reason here.sound here.inLine offered opens drops
  · intro atOnce
    have prompt := h.prompt_pass ctx (same ▸ atOnce)
    refine ⟨List.eq_nil_iff_forall_not_mem.mpr ?_, prompt.tallied⟩
    intro c member
    exact prompt.vacant c ((h.pass keeps).sound.registry.mem_toList.mp member)

/-- A ride is refused in a service whose drivers answer at once. -/
theorem drop_reasons_refusedRide :
    let settings : Settings := { goal := .minWaitTime }
    let s := (fresh settings 9 closedRouter ⟨120⟩ ⟨60⟩).run refusedRide
    let ctx : CycleContext := ⟨0, steadyRouter⟩
    (∀ ctx', .cycle ctx' ∈ .cycle ctx :: refusedRide → ctx'.router.KeepsDepartures) ∧
    settings.confirmationDelay = 0 ∧
    ∃ report, (s.dispatcher.runCycle ctx s.fleet).report = .ok report ∧
      report.dropped = [(⟨1⟩, .commitFailed)] ∧
      (∃ t, s.dispatcher.Amid ctx s.fleet t ∧ t.report.dropped = [] ∧ t.Wayless ctx.now closedRouter ⟨1⟩) ∧
      (s.dispatcher.runCycle ctx s.fleet).dispatcher.state.registry.toList = [] ∧
      report.opened = report.committed.length + report.dropped.length := by
  intro settings s ctx
  have keep : ∀ ctx', .cycle ctx' ∈ .cycle ctx :: refusedRide → ctx'.router.KeepsDepartures := by
    intro ctx' member
    obtain rfl : ctx' = ctx := by simpa [refusedRide] using member
    rintro _ _ _ _ ⟨⟩
    rfl
  have atOnce : settings.confirmationDelay = 0 := by decide +kernel
  obtain ⟨report, ok, reasons, prompt⟩ :=
    drop_reasons settings 9 closedRouter ⟨120⟩ ⟨60⟩ refusedRide ctx keep
  have dropped : report.dropped = [(⟨1⟩, .commitFailed)] := by
    have all : (s.dispatcher.runCycle ctx s.fleet).report.toOption.map CycleReport.dropped =
        some [(⟨1⟩, .commitFailed)] := by
      decide +kernel
    rw [show (s.dispatcher.runCycle ctx s.fleet).report = .ok report from ok] at all
    exact Option.some.inj all
  obtain ⟨_, _, wayless, _⟩ := reasons [] ⟨1⟩ .commitFailed [] dropped
  exact ⟨keep, atOnce, report, ok, dropped, wayless rfl, by simpa only [s] using prompt atOnce⟩

end Service

end RideDispatch

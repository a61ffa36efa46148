import RideDispatch.Proofs.Defects
import RideDispatch.Proofs.Index

/-!
# The moves of a cycle

A `Session.Move` is coarser than a step: a driver who accepts at once has also been given the ride, or has
been passed over, when the move is over. It is also told which pairings may be made. `Dispatcher.Offers` says
which pairings a cycle makes: the request is queued and in time, the way to the pickup has been found for
just that vehicle, and the vehicle comes from one of three lists (`Supplied`), the index as it is now, the
idle vehicles seen at the beginning as far as they are still indexed, or the free vehicles seen at the
beginning as far as they have been given nothing since. `Dispatcher.synced_moves` says that a cycle is a path of
moves that makes only such pairings.
-/

namespace RideDispatch

open Relation (ReflTransGen)

/-- A path on which a log grows by suffixes has a step that adds what stands at a given place. -/
lemma exists_step_adding {σ α : Type} {R : σ → σ → Prop} {s s' : σ} {before after : List α} {x : α}
    (log : σ → List α) (grows : ∀ s s', R s s' → log s <+: log s')
    (path : ReflTransGen R s s') (start : log s = []) (all : log s' = before ++ x :: after) :
    ∃ t t' pre post, ReflTransGen R s t ∧ R t t' ∧ ReflTransGen R t' s' ∧ before = log t ++ pre ∧
      log t' = log t ++ (pre ++ x :: post) := by
  induction path generalizing after with
  | refl =>
    rw [start] at all
    exact absurd all.symm (List.append_ne_nil_of_right_ne_nil _ (List.cons_ne_nil _ _))
  | @tail t t' path step ih =>
    obtain ⟨more, grown⟩ := grows t t' step
    rw [all] at grown
    -- what stands there has been added by this step, or it was there before
    rcases List.append_eq_append_iff.mp grown with ⟨pre, early, new⟩ | ⟨old, late, new⟩
    · exact ⟨t, t', pre, after, path, step, .refl, early, by rw [all, early, List.append_assoc]⟩
    · cases old with
      | nil =>
        rw [List.append_nil] at late
        exact ⟨t, t', [], after, path, step, .refl, by rw [late, List.append_nil], by rw [all, late]; rfl⟩
      | cons first rest =>
        obtain ⟨rfl, _⟩ := List.cons.inj new
        obtain ⟨u, u', pre, post, path, step', later, found⟩ := ih late
        exact ⟨u, u', pre, post, path, step', later.tail step, found⟩

/-! ## What a consumption leaves -/

/-- A report tells what has become of one more confirmation: a ride, or why there is none. -/
inductive CycleReport.Concludes (opening : ConfirmationEvent) (r r' : CycleReport) : Prop
  | ride :
    r'.committed = r.committed ++ [⟨opening.request, opening.passenger, opening.vehicle⟩] →
    r'.dropped = r.dropped → Concludes opening r r'
  | drop (reason : DropReason) :
    r'.committed = r.committed →
    r'.dropped = r.dropped ++ [(opening.request, reason)] → Concludes opening r r'

namespace Session

section Parts

variable {φ : Type} {s s' next : Session φ} {now : Time} {c : Confirmation} {p : Pairing}

/-- What is told and reported stays so. -/
structure Continues (s s' : Session φ) : Prop where
  events : s.events <+: s'.events
  committed : s.report.committed <+: s'.report.committed
  dropped : s.report.dropped <+: s'.report.dropped

lemma Continues.of_same (events : s'.events = s.events)
    (committed : s'.report.committed = s.report.committed)
    (dropped : s'.report.dropped = s.report.dropped) : s.Continues s' :=
  ⟨events ▸ List.prefix_rfl, committed ▸ List.prefix_rfl, dropped ▸ List.prefix_rfl⟩

lemma Continues.trans (first : s.Continues s') (second : s'.Continues next) : s.Continues next where
  events := first.events.trans second.events
  committed := first.committed.trans second.committed
  dropped := first.dropped.trans second.dropped

/-- A driver is asked for a pairing, which opens a confirmation. -/
def Opens (now : Time) (s : Session φ) (p : Pairing) (c : Confirmation) : Prop :=
  ∃ request, s.state.queue.get? p.request = some request ∧
    s.state.registry.add request p.vehicle p.pickup now =
      .ok (c, c.createdEvent, s.state.registry.register c)

/-- The session in which a confirmation has been opened. -/
def asking (s : Session φ) (c : Confirmation) : Session φ :=
  s.opened c.createdEvent (s.state.registry.register c)

namespace Opens

lemma admits (h : s.Opens now p c) : s.state.registry.Admits c := by
  obtain ⟨request, _, added⟩ := h
  exact (Registry.add_eq_ok added).2.1

lemma holds (h : s.Opens now p c) : (s.asking c).state.registry.Holds c := by
  obtain ⟨request, _, added⟩ := h
  exact holds_opened added

/-- The confirmation is for the request, the vehicle and the way of the pairing. -/
lemma ends (h : s.Opens now p c) (sound : s.state.Sound) :
    c.request = p.request ∧ c.vehicle = p.vehicle ∧ c.pickup = p.pickup := by
  obtain ⟨request, queued, added⟩ := h
  exact ends_of_added sound queued added

/-- The confirmation is due when the delay is over, and complete if that is now. -/
lemma timed (h : s.Opens now p c) : c.createdAt = now ∧ c.dueAt = now + s.state.registry.delay ∧
    (c.complete = true ↔ c.dueAt ≤ now) := by
  obtain ⟨request, _, added⟩ := h
  obtain ⟨rfl, _⟩ := Registry.add_eq_ok added
  exact ⟨rfl, rfl, decide_eq_true_iff⟩

end Opens

end Parts

variable {φ : Type} [Fleet φ] {s s' next : Session φ} {now : Time} {c : Confirmation} {p : Pairing}

lemma consume_events (held : s.state.registry.Holds c) :
    (s.consume now c.id).2.events = s.events ++ [c.completedEvent now] := by
  cases outcome : s.outcome now c with
  | ok fleet => rw [consume_of_ok held outcome]; rfl
  | error refusal => rw [consume_of_error held outcome]; rfl

lemma consume_concludes (held : s.state.registry.Holds c) :
    s.report.Concludes c.createdEvent (s.consume now c.id).2.report := by
  cases outcome : s.outcome now c with
  | ok fleet =>
    rw [consume_of_ok held outcome]
    exact .ride rfl rfl
  | error refusal =>
    rw [consume_of_error held outcome]
    exact .drop refusal.reason rfl rfl

lemma consume_continues (held : s.state.registry.Holds c) : s.Continues (s.consume now c.id).2 := by
  have told : s.events <+: (s.consume now c.id).2.events := ⟨_, (consume_events held).symm⟩
  have concluded : s.report.Concludes c.createdEvent (s.consume now c.id).2.report :=
    consume_concludes held
  cases concluded with
  | ride committed dropped => exact ⟨told, ⟨_, committed.symm⟩, dropped ▸ List.prefix_rfl⟩
  | drop _ committed dropped => exact ⟨told, committed ▸ List.prefix_rfl, ⟨_, dropped.symm⟩⟩

/-- What becomes of a driver who is asked: the confirmation waits, or it ends at once, with a ride or
without. -/
inductive Fate (now : Time) (s : Session φ) (p : Pairing) : Session φ → Prop
  | waits {c : Confirmation} (opens : s.Opens now p c) (waiting : c.complete = false) :
    Fate now s p (s.asking c)
  | rides {c : Confirmation} {fleet : φ} (opens : s.Opens now p c) (complete : c.complete = true)
    (outcome : (s.asking c).outcome now c = .ok fleet) :
    Fate now s p (((s.asking c).close now c).commitRide c fleet)
  | drops {c : Confirmation} {refusal : Refusal} (opens : s.Opens now p c) (complete : c.complete = true)
    (outcome : (s.asking c).outcome now c = .error refusal) :
    Fate now s p ((s.asking c).drop now c refusal)

lemma openConfirmation_fate {request : Request} {placement : Placement}
    (queued : s.state.queue.get? p.request = some request)
    (made : s.openConfirmation now p = .ok (placement, next)) : Fate now s p next := by
  rcases openConfirmation_eq_ok made with ⟨absent, _⟩ | ⟨request', c, queued', added, outcome⟩
  · rw [queued] at absent
    cases absent
  · have opens : s.Opens now p c := ⟨request', queued', added⟩
    rcases outcome with ⟨waiting, _, rfl⟩ | ⟨complete, consumed⟩
    · exact .waits opens waiting
    · obtain rfl : next = ((s.asking c).consume now c.id).2 := congrArg Prod.snd consumed
      cases outcome : (s.asking c).outcome now c with
      | ok fleet =>
        rw [consume_of_ok opens.holds outcome]
        exact .rides opens complete outcome
      | error refusal =>
        rw [consume_of_error opens.holds outcome]
        exact .drops opens complete outcome

/-! ## Moves -/

/-- What a cycle does at a time, where `fit` tells which pairings it may make. -/
inductive Move (fit : Session φ → Pairing → Prop) (now : Time) : Session φ → Session φ → Prop
  | sync {s : Session φ} : Move fit now s (s.syncVehicles now)
  | attempts {s : Session φ} (ids : List RequestId) :
    Move fit now s { s with
      state := { s.state with queue := ids.foldl RequestQueue.countAttempt s.state.queue } }
  | tally {s : Session φ} {report : CycleReport} :
    report.committed = s.report.committed →
    report.dropped = s.report.dropped →
    report.opened = s.report.opened →
    Move fit now s { s with report := report }
  | note {s : Session φ} (astray : Bool) : Move fit now s (s.note astray)
  | settles {s : Session φ} {c : Confirmation} :
    s.state.registry.Holds c →
    c.complete = true →
    Move fit now s (s.consume now c.id).2
  | asks {s : Session φ} {p : Pairing} {c : Confirmation} :
    fit s p →
    s.Opens now p c →
    c.complete = false →
    Move fit now s (s.asking c)
  | takes {s : Session φ} {p : Pairing} {c : Confirmation} :
    fit s p →
    s.Opens now p c →
    c.complete = true →
    Move fit now s ((s.asking c).consume now c.id).2

/-- A path of moves at one moment. -/
abbrev Moves (fit : Session φ → Pairing → Prop) (now : Time) : Session φ → Session φ → Prop :=
  ReflTransGen (Move fit now)

lemma Opens.step (h : s.Opens now p c) : Step now s (s.asking c) := by
  obtain ⟨request, queued, added⟩ := h
  exact .opens queued added

section Moves

variable {fit : Session φ → Pairing → Prop}

lemma Move.steps (move : Move fit now s s') : Steps now s s' := by
  cases move with
  | sync => exact .single .sync
  | attempts ids => exact .single (.attempts ids)
  | tally committed => exact .single (.tally committed)
  | note astray => exact .single (.note astray)
  | settles held complete => exact consume_steps held complete
  | asks _ opens => exact .single opens.step
  | takes _ opens complete => exact .head opens.step (consume_steps opens.holds complete)

lemma Moves.steps (moves : Moves fit now s s') : Steps now s s' :=
  Relation.reflTransGen_closed (fun _ _ => Move.steps) _ _ moves

lemma Move.sound (move : Move fit now s s') (h : s.state.Sound) : s'.state.Sound :=
  Steps.sound move.steps h

lemma Moves.of_note {astray : Bool} (moves : Moves fit now (s.note astray) s') : Moves fit now s s' :=
  .head (.note astray) moves

lemma Moves.of_tally {report : CycleReport} (moves : Moves fit now { s with report := report } s')
    (committed : report.committed = s.report.committed) (dropped : report.dropped = s.report.dropped)
    (opened : report.opened = s.report.opened) : Moves fit now s s' :=
  .head (.tally committed dropped opened) moves

lemma Moves.sound (moves : Moves fit now s s') (h : s.state.Sound) : s'.state.Sound :=
  Steps.sound moves.steps h

lemma Move.continues (move : Move fit now s s') : s.Continues s' := by
  cases move with
  | sync => exact .of_same rfl rfl rfl
  | attempts => exact .of_same rfl rfl rfl
  | tally committed dropped => exact .of_same rfl committed dropped
  | note => exact .of_same rfl rfl rfl
  | settles held => exact consume_continues held
  | asks => exact ⟨List.prefix_append _ _, List.prefix_rfl, List.prefix_rfl⟩
  | @takes p c _ opens =>
    have asked : s.Continues (s.asking c) := ⟨List.prefix_append _ _, List.prefix_rfl, List.prefix_rfl⟩
    exact asked.trans (consume_continues opens.holds)

lemma Moves.continues (moves : Moves fit now s s') : s.Continues s' := by
  induction moves with
  | refl => exact .of_same rfl rfl rfl
  | tail _ move ih => exact ih.trans move.continues

/-- What is told of an opening is told by a move that asks the driver. -/
lemma Move.opening_inv {pre post : List ConfirmationEvent} {opening : ConfirmationEvent}
    (move : Move fit now s s') (told : s'.events = s.events ++ (pre ++ opening :: post))
    (created : opening.stage = .created) :
    ∃ p c, fit s p ∧ s.Opens now p c ∧ pre = [] ∧ opening = c.createdEvent ∧
      ((c.complete = false ∧ s' = s.asking c) ∨
        (c.complete = true ∧ s' = ((s.asking c).consume now c.id).2)) := by
  have loud : s'.events ≠ s.events := by
    rw [told]
    simp
  -- an opening is told first of all that a move tells, or not at all
  have first {e : ConfirmationEvent} {rest : List ConfirmationEvent}
      (closings : ∀ e ∈ rest, e.stage ≠ .created) (events : s'.events = s.events ++ e :: rest) :
      pre = [] ∧ opening = e := by
    have all := List.append_cancel_left (told.symm.trans events)
    cases pre with
    | nil => exact ⟨rfl, (List.cons.inj all).1⟩
    | cons early others =>
      have member : opening ∈ rest := by
        rw [← (List.cons.inj all).2]
        simp
      exact absurd created (closings opening member)
  cases move with
  | sync => exact absurd rfl loud
  | attempts => exact absurd rfl loud
  | tally => exact absurd rfl loud
  | note => exact absurd rfl loud
  | settles held =>
    obtain ⟨_, rfl⟩ := first (List.forall_mem_nil _) (consume_events held)
    cases created
  | @asks p c fits opens pending =>
    obtain ⟨none_, own⟩ := first (List.forall_mem_nil _) rfl
    exact ⟨p, c, fits, opens, none_, own, .inl ⟨pending, rfl⟩⟩
  | @takes p c fits opens complete =>
    have events : ((s.asking c).consume now c.id).2.events =
        s.events ++ [c.createdEvent, c.completedEvent now] := by
      rw [consume_events opens.holds, show (s.asking c).events = s.events ++ [c.createdEvent] from rfl,
        List.append_assoc]
      rfl
    obtain ⟨none_, own⟩ := first (by simp [Confirmation.completedEvent]) events
    exact ⟨p, c, fits, opens, none_, own, .inr ⟨complete, rfl⟩⟩

/-- A ride is given: its confirmation is consumed, which has been opened before or just now. -/
structure Gives (fit : Session φ → Pairing → Prop) (now : Time) (s t : Session φ) (c : Confirmation)
    (fleet : φ) : Prop where
  reached : t = s ∨ ∃ p, fit s p ∧ s.Opens now p c ∧ t = s.asking c
  held : t.state.registry.Holds c
  complete : c.complete = true
  outcome : t.outcome now c = .ok fleet

lemma Gives.committed {t : Session φ} {fleet : φ} (given : Gives fit now s t c fleet) :
    t.report.committed = s.report.committed := by
  rcases given.reached with rfl | ⟨_, _, _, rfl⟩ <;> rfl

lemma Gives.steps {t : Session φ} {fleet : φ} (given : Gives fit now s t c fleet) : Steps now s t := by
  rcases given.reached with rfl | ⟨_, _, opens, rfl⟩
  · exact .refl
  · exact .single opens.step

lemma Gives.step {t : Session φ} {fleet : φ} (given : Gives fit now s t c fleet) :
    Step now t ((t.close now c).commitRide c fleet) :=
  .commits given.held given.complete given.outcome

/-- A ride is reported by a move that gives it. -/
lemma Move.ride_inv {pre post : List CommittedRide} {ride : CommittedRide} (move : Move fit now s s')
    (more : s'.report.committed = s.report.committed ++ (pre ++ ride :: post)) :
    ∃ t c fleet, Gives fit now s t c fleet ∧ pre = [] ∧ ride = ⟨c.request, c.passenger, c.vehicle⟩ ∧
      s' = (t.close now c).commitRide c fleet := by
  have rides : s'.report.committed ≠ s.report.committed := by
    rw [more]
    simp
  -- a consumption that reports a ride has given it
  have consumed {t : Session φ} {c : Confirmation} (held : t.state.registry.Holds c)
      (same : t.report.committed = s.report.committed) (after : s' = (t.consume now c.id).2) :
      ∃ fleet, t.outcome now c = .ok fleet ∧ pre = [] ∧ ride = ⟨c.request, c.passenger, c.vehicle⟩ ∧
        s' = (t.close now c).commitRide c fleet := by
    cases outcome : t.outcome now c with
    | error refusal =>
      rw [consume_of_error held outcome] at after
      subst after
      exact absurd same rides
    | ok fleet =>
      rw [consume_of_ok held outcome] at after
      subst after
      replace more : t.report.committed ++ [⟨c.request, c.passenger, c.vehicle⟩] =
        s.report.committed ++ (pre ++ ride :: post) := more
      rw [same] at more
      rcases List.append_eq_singleton_iff.mp (List.append_cancel_left more).symm with
        ⟨none_, one⟩ | ⟨_, none_⟩
      · exact ⟨fleet, rfl, none_, (List.cons.inj one).1, rfl⟩
      · cases none_
  cases move with
  | sync => exact absurd rfl rides
  | attempts => exact absurd rfl rides
  | tally same => exact absurd same rides
  | note => exact absurd rfl rides
  | @settles c held complete =>
    obtain ⟨fleet, outcome, rest⟩ := consumed held rfl rfl
    exact ⟨_, c, fleet, ⟨.inl rfl, held, complete, outcome⟩, rest⟩
  | asks => exact absurd rfl rides
  | @takes p c fits opens complete =>
    obtain ⟨fleet, outcome, rest⟩ := consumed opens.holds rfl rfl
    exact ⟨_, c, fleet, ⟨.inr ⟨p, fits, opens, rfl⟩, opens.holds, complete, outcome⟩, rest⟩

/-- A pairing of a queued request that may be made is a move. -/
lemma openConfirmation_move {request : Request} {placement : Placement} (fits : fit s p)
    (queued : s.state.queue.get? p.request = some request)
    (made : s.openConfirmation now p = .ok (placement, next)) : Move fit now s next := by
  rcases openConfirmation_eq_ok made with ⟨absent, _⟩ | ⟨request', c, queued', added, outcome⟩
  · rw [queued] at absent
    cases absent
  · have opens : s.Opens now p c := ⟨request', queued', added⟩
    rcases outcome with ⟨pending, _, rfl⟩ | ⟨complete, consumed⟩
    · exact .asks fits opens pending
    · obtain rfl : next = _ := congrArg Prod.snd consumed
      exact .takes fits opens complete

end Moves

end Session

/-! ## The pairings of a cycle -/

/-- The request is queued and has not expired. -/
def DispatchState.Wants (s : DispatchState) (id : RequestId) (now : Time) : Prop :=
  ∃ r, s.queue.get? id = some r ∧ r.isExpired now = false

/-- A fleet after other vehicles than one have been given rides. -/
inductive Spared {φ : Type} [Fleet φ] (v : VehicleId) (fleet : φ) : φ → Prop
  | refl : Spared v fleet fleet
  | tail {f f' : φ} {other request pickup now} :
    Spared v fleet f →
    other ≠ v →
    Fleet.commit f other request pickup now = .ok f' →
    Spared v fleet f'

section Offers

variable {φ : Type} [Fleet φ]

/-- Where a pass that has begun with `start`, seeing `view`, finds a vehicle: in the index, among the idle
ones if it is still indexed, or among the free ones. In the last two cases it has been given nothing since. -/
inductive Supplied (now : Time) (view : Snapshot) (start s : Session φ) (e : VehicleEntry) : Prop
  | near :
    s.state.zones.vehicles.place? e.id = some e.place →
    e.availableAt = now →
    Supplied now view start s e
  | idle :
    e ∈ view.idle →
    s.state.zones.vehicles.contains e.id = true →
    Spared e.id start.fleet s.fleet →
    Supplied now view start s e
  | free :
    e ∈ view.vehicles →
    ((view.vehicles.map VehicleEntry.id).Nodup → Spared e.id start.fleet s.fleet) →
    Supplied now view start s e

/-- A pairing is for a request that is queued and in time, and for a vehicle that is supplied, by the way
that leads from where and when the vehicle is free to the request. -/
structure Fits (ctx : CycleContext) (view : Snapshot) (start s : Session φ) (p : Pairing) (r : Request)
    (e : VehicleEntry) : Prop where
  queued : s.state.queue.get? p.request = some r
  inTime : r.isExpired ctx.now = false
  vehicle : e.id = p.vehicle
  way : ctx.router.route? e.place r.origin e.availableAt = some p.pickup
  supplied : Supplied ctx.now view start s e

/-- A pairing fits some request and some vehicle. -/
def Offered (ctx : CycleContext) (view : Snapshot) (start s : Session φ) (p : Pairing) : Prop :=
  ∃ r e, Fits ctx view start s p r e

variable {s s' start next : Session φ} {ctx : CycleContext} {view : Snapshot} {limit : Nat} {p : Pairing}
variable {placement : Placement}

lemma Offered.move (h : Offered ctx view start s p)
    (made : s.openConfirmation ctx.now p = .ok (placement, next)) :
    Session.Move (Offered ctx view start) ctx.now s next := by
  obtain ⟨r, e, fits⟩ := h
  exact Session.openConfirmation_move ⟨r, e, fits⟩ fits.queued made

/-- A pairing spares the other vehicles. -/
lemma Spared.openConfirmation {v : VehicleId} {fleet : φ} (spared : Spared v fleet s.fleet)
    (other : p.vehicle ≠ v) (sound : s.state.Sound)
    (made : s.openConfirmation ctx.now p = .ok (placement, next)) : Spared v fleet next.fleet := by
  rcases Session.openConfirmation_effect sound made with ⟨same, _⟩ | ⟨request, pickup, committed, _⟩
  · rw [same]
    exact spared
  · exact spared.tail other committed

/-- A vehicle that is still indexed after a pairing has been spared. -/
lemma spared_of_indexed {v : VehicleId} {fleet : φ} (sound : s.state.Sound)
    (spared : s.state.zones.vehicles.contains v = true → Spared v fleet s.fleet)
    (made : s.openConfirmation ctx.now p = .ok (placement, next))
    (indexed : next.state.zones.vehicles.contains v = true) : Spared v fleet next.fleet := by
  rcases Session.openConfirmation_effect sound made with ⟨same, _, zones⟩ | ⟨_, _, committed, _, zones⟩
  · rw [zones] at indexed
    rw [same]
    exact spared indexed
  · rw [zones] at indexed
    replace indexed : (s.state.zones.vehicles.erase p.vehicle).contains v = true := indexed
    rw [ZoneMap.contains_erase, Bool.and_eq_true, Bool.not_eq_true', decide_eq_false_iff_not] at indexed
    exact (spared indexed.2).tail indexed.1 committed

namespace Greedy

lemma offered_of_bestVehicle? {request : Request}
    (plannable : s.state.isPlannable request.id ctx.now = true)
    (queued : s.state.queue.get? request.id = some request)
    (best : bestVehicle? ctx.router request (candidateVehicles s.state limit ctx.now request) = some p) :
    Offered ctx view start s p := by
  obtain ⟨own, e, candidate, same, way⟩ := bestVehicle?_eq_some best
  obtain ⟨_, placed, now_⟩ := free_of_mem_candidateVehicles candidate
  obtain ⟨_, r, queued', inTime⟩ := DispatchState.isPlannable_iff.mp plannable
  obtain rfl := Option.some.inj (queued.symm.trans queued')
  exact ⟨request, e, own ▸ queued, inTime, same, way, .near placed now_⟩

lemma offered_of_bestRequest? {vehicle : VehicleEntry} (sound : s.state.Sound) (seen : vehicle ∈ view.idle)
    (indexed : s.state.zones.vehicles.contains vehicle.id = true)
    (spared : Spared vehicle.id start.fleet s.fleet)
    (best : bestRequest? ctx.router vehicle (candidateRequests s.state limit ctx.now vehicle) = some p) :
    Offered ctx view start s p := by
  obtain ⟨own, r, candidate, same, way⟩ := bestRequest?_eq_some best
  obtain ⟨plannable, queued⟩ := plannable_of_mem_candidateRequests sound candidate
  obtain ⟨_, r', queued', inTime⟩ := DispatchState.isPlannable_iff.mp plannable
  obtain rfl := Option.some.inj (queued.symm.trans queued')
  exact ⟨r, vehicle, same ▸ queued, inTime, own.symm, way, .idle seen indexed spared⟩

lemma offerRequests_moves {ids : List RequestId} {idle : Nat} (sound : s.state.Sound) :
    Session.Moves (Offered ctx view start) ctx.now s (offerRequests ctx limit ids idle s).session := by
  induction ids generalizing idle s with
  | nil => exact .refl
  | cons id rest ih =>
    unfold offerRequests
    split
    · exact ih sound
    · rename_i plannable
      split
      · refine .of_tally (ih ?_) rfl rfl rfl
        exact sound
      · split
        · exact ih sound
        · rename_i request queued
          obtain rfl := sound.queue _ _ queued
          rw [Bool.not_eq_true, Bool.not_eq_false'] at plannable
          simp only
          apply Session.Moves.of_note
          split
          · refine .of_tally (ih ?_) rfl rfl rfl
            exact sound
          · rename_i pairing best
            split
            · exact .refl
            · rename_i next made
              have offered (astray : Bool) : Offered ctx view start (s.note astray) pairing :=
                offered_of_bestVehicle? (s := s.note astray) plannable queued best
              have move := (offered _).move made
              exact .head move (ih (move.sound sound))

lemma offerVehicles_moves {vehicles : List VehicleEntry} (sound : s.state.Sound)
    (seen : ∀ e ∈ vehicles, e ∈ view.idle)
    (spared : ∀ e ∈ vehicles, s.state.zones.vehicles.contains e.id = true →
      Spared e.id start.fleet s.fleet) :
    Session.Moves (Offered ctx view start) ctx.now s (offerVehicles ctx limit vehicles s).session := by
  induction vehicles generalizing s with
  | nil => exact .refl
  | cons vehicle rest ih =>
    have seen' := fun e member => seen e (List.mem_cons_of_mem _ member)
    have spared' := fun e member => spared e (List.mem_cons_of_mem _ member)
    unfold offerVehicles
    split
    · exact .refl
    · split
      · exact ih sound seen' spared'
      · rename_i open_
        simp only [Bool.or_eq_true, not_or, Bool.not_eq_true, Bool.not_eq_false'] at open_
        simp only
        apply Session.Moves.of_note
        split
        · exact ih sound seen' spared'
        · rename_i pairing best
          split
          · exact .refl
          · rename_i next made
            have offered (astray : Bool) : Offered ctx view start (s.note astray) pairing :=
              offered_of_bestRequest? (s := s.note astray) sound (seen vehicle List.mem_cons_self) open_.2
                (spared vehicle List.mem_cons_self open_.2) best
            have move := (offered _).move made
            refine .head move (ih (move.sound sound) seen' ?_)
            intro e member
            exact spared_of_indexed (s := s.note _) sound (spared' e member) made

lemma schedule_moves {settings : Settings} {planning : List RequestId} (sound : s.state.Sound)
    (same : s.fleet = start.fleet) :
    Session.Moves (Offered ctx view start) ctx.now s (schedule settings ctx planning view s).session := by
  unfold schedule
  split
  · have moves : Session.Moves (Offered ctx view start) ctx.now s
        (offerVehicles ctx settings.nearestRequestsLimit view.idle s).session := by
      refine offerVehicles_moves sound (fun _ member => member) ?_
      intro e _ _
      rw [same]
      exact .refl
    simp only
    split
    · exact moves
    · exact moves.tail (.tally rfl rfl rfl)
  · exact offerRequests_moves sound

end Greedy

namespace Batch

lemma openAll_moves {pairings : List Pairing} (sound : s.state.Sound)
    (listed : ∀ p ∈ pairings, ∃ r, ∃ e ∈ view.vehicles, s.state.queue.get? p.request = some r ∧
      r.isExpired ctx.now = false ∧ e.id = p.vehicle ∧
      ctx.router.route? e.place r.origin e.availableAt = some p.pickup)
    (requests : pairings.Pairwise fun p q => p.request ≠ q.request)
    (vehicles : (view.vehicles.map VehicleEntry.id).Nodup →
      pairings.Pairwise (fun p q => p.vehicle ≠ q.vehicle) ∧
        ∀ p ∈ pairings, Spared p.vehicle start.fleet s.fleet) :
    Session.Moves (Offered ctx view start) ctx.now s (openAll ctx.now pairings s).session := by
  induction pairings generalizing s with
  | nil => exact .refl
  | cons p rest ih =>
    unfold openAll
    split
    · exact .refl
    · rename_i next made
      have offered : Offered ctx view start s p := by
        obtain ⟨r, e, seen, queued, inTime, same, way⟩ := listed p List.mem_cons_self
        refine ⟨r, e, queued, inTime, same, way, .free seen ?_⟩
        intro distinct
        rw [same]
        exact (vehicles distinct).2 p List.mem_cons_self
      obtain ⟨others, apart⟩ := List.pairwise_cons.mp requests
      have move := offered.move made
      refine .head move (ih (move.sound sound) ?_ apart ?_)
      · intro q member
        rw [Session.openConfirmation_queue (others q member).symm sound made]
        exact listed q (List.mem_cons_of_mem p member)
      · intro distinct
        obtain ⟨apart, spared⟩ := vehicles distinct
        obtain ⟨others, apart⟩ := List.pairwise_cons.mp apart
        refine ⟨apart, fun q member => ?_⟩
        exact (spared q (List.mem_cons_of_mem p member)).openConfirmation (others q member) sound made

lemma schedule_moves [Matching.Solver] [Matching.DistinctSolver] {settings : Settings} {resolution : Resolution}
    (sound : s.state.Sound)
    (distinct : (view.requests.map RequestEntry.id).Nodup) (same : s.fleet = start.fleet) :
    Session.Moves (Offered ctx view start) ctx.now s (schedule settings resolution ctx view s).session := by
  unfold schedule
  simp only
  split
  · exact .refl
  · refine .of_note (.of_tally (openAll_moves ?_ ?_ ?_ ?_) rfl rfl rfl)
    · exact sound
    · intro p member
      obtain ⟨pair, _, made⟩ := List.mem_filterMap.mp member
      obtain ⟨request, vehicle, offer, row, column, offered, own, rfl⟩ := pairing?_eq_some made
      obtain ⟨c, _, found⟩ := List.mem_filterMap.mp offered
      obtain ⟨request', vehicle', pickup, row', column', way, rfl⟩ := offer?_eq_some.mp found
      obtain rfl : c = _ := own
      obtain rfl : request = request' := Option.some.inj (row.symm.trans row')
      obtain rfl : vehicle = vehicle' := Option.some.inj (column.symm.trans column')
      have listed := List.mem_of_getElem? row
      have queued : s.state.queue.get? request.id = some request := queued_of_mem sound listed
      obtain ⟨_, r, queued', inTime⟩ := DispatchState.isPlannable_iff.mp (plannable_of_mem sound listed)
      obtain rfl := Option.some.inj (queued.symm.trans queued')
      exact ⟨request, vehicle, (List.mem_filter.mp (List.mem_of_getElem? column)).1, queued, inTime, rfl, way⟩
    · exact pairings_requests Matching.solve_disjoint (nodup_plannableRequests sound distinct)
    · intro distinct
      refine ⟨pairings_vehicles Matching.solve_disjoint (nodup_freeVehicles distinct), ?_⟩
      intro p _
      show Spared p.vehicle start.fleet s.fleet
      rw [same]
      exact .refl

end Batch

lemma Session.schedule_moves {settings : Settings} {resolution : Resolution} {planning : List RequestId}
    (sound : s.state.Sound) (distinct : (view.requests.map RequestEntry.id).Nodup) :
    Moves (Offered ctx view s) ctx.now s (s.schedule settings resolution ctx planning view).session := by
  unfold Session.schedule
  split
  · exact Greedy.schedule_moves sound rfl
  · exact Batch.schedule_moves sound distinct rfl

end Offers

/-! ## A cycle is a path of moves -/

namespace Dispatcher

variable {φ : Type} [Fleet φ] {d : Dispatcher} {ctx : CycleContext} {fleet : φ}

/-- A session of a cycle at work. -/
structure Amid (d : Dispatcher) (ctx : CycleContext) (fleet : φ) (s : Session φ) : Prop where
  earlier : Session.Steps ctx.now (d.begin ctx.now fleet) s
  later : Session.Steps ctx.now s (d.pass ctx fleet).session

/-- The pairings that a cycle makes. -/
def Offers (d : Dispatcher) (ctx : CycleContext) (fleet : φ) : Session φ → Pairing → Prop :=
  Offered ctx (d.view ctx.now fleet) (d.planned ctx.now fleet)

lemma consumeAll_moves {fit : Session φ → Pairing → Prop} {s : Session φ} {now : Time}
    {ids : List ConfirmationId} (sound : s.state.Sound)
    (complete : ∀ id ∈ ids, ∀ c, s.state.registry.get? id = some c → c.complete = true) :
    Session.Moves fit now s (s.consumeAll now ids) := by
  refine Relation.ReflTransGen.mono ?_ _ _ (Session.consumeAll_settles sound complete)
  rintro _ _ ⟨c, held, own, rfl⟩
  exact .settles held own

lemma planned_moves {fit : Session φ → Pairing → Prop} {now : Time} :
    Session.Moves fit now (d.consumed now fleet) (d.planned now fleet) := by
  have settled : Session.Moves fit now (d.consumed now fleet) (d.settle now fleet) := by
    rw [settle_eq]
    split
    · exact .refl
    · exact .single .sync
  exact (settled.tail (.attempts (d.plans now fleet))).tail (.tally rfl rfl rfl)

/-- From the moment at which the complete confirmations have been consumed a cycle moves on to its end. -/
lemma consumed_moves (ctx : CycleContext) (fleet : φ) (sound : d.state.Sound) :
    Session.Moves (d.Offers ctx fleet) ctx.now (d.consumed ctx.now fleet) (d.pass ctx fleet).session := by
  refine planned_moves.trans ?_
  unfold pass
  split
  · exact .refl
  · exact Session.schedule_moves (planned_sound ctx.now fleet sound)
      (nodup_view_requests ctx.now fleet sound)

/-- A cycle is a path of moves from the moment at which the index is in line with the fleet, and it makes
only the pairings that it offers. -/
theorem synced_moves (ctx : CycleContext) (fleet : φ) (sound : d.state.Sound) :
    Session.Moves (d.Offers ctx fleet) ctx.now (d.synced ctx.now fleet) (d.pass ctx fleet).session :=
  (consumeAll_moves (synced_sound sound) (complete_of_listed sound)).trans (consumed_moves ctx fleet sound)

/-- What a cycle tells of an opening is told when it asks the driver of a pairing that it offers. -/
lemma exists_opening (sound : d.state.Sound) {earlier later : List ConfirmationEvent}
    {opening : ConfirmationEvent} (told : (d.runCycle ctx fleet).events = earlier ++ opening :: later)
    (created : opening.stage = .created) :
    ∃ s s' p c, Session.Moves (d.Offers ctx fleet) ctx.now (d.synced ctx.now fleet) s ∧
      Session.Moves (d.Offers ctx fleet) ctx.now s' (d.pass ctx fleet).session ∧
      d.Offers ctx fleet s p ∧ s.Opens ctx.now p c ∧ s.events = earlier ∧ opening = c.createdEvent ∧
      ((c.complete = false ∧ s' = s.asking c) ∨
        (c.complete = true ∧ s' = ((s.asking c).consume ctx.now c.id).2)) := by
  rw [runCycle_events] at told
  obtain ⟨s, s', pre, post, first, move, rest, same, events⟩ := exists_step_adding Session.events
    (fun _ _ move => (Session.Move.continues move).events) (synced_moves ctx fleet sound) rfl told
  obtain ⟨p, c, fits, opens, rfl, own, outcome⟩ := move.opening_inv events created
  exact ⟨s, s', p, c, first, rest, fits, opens, by rw [same, List.append_nil], own, outcome⟩

/-- A ride that a cycle reports has been given in the cycle, when just the rides before it had been. -/
lemma exists_ride (sound : d.state.Sound) {earlier later : List CommittedRide} {ride : CommittedRide}
    (told : (d.pass ctx fleet).session.report.committed = earlier ++ ride :: later) :
    ∃ s t c taken, Session.Moves (d.Offers ctx fleet) ctx.now (d.synced ctx.now fleet) s ∧
      Session.Gives (d.Offers ctx fleet) ctx.now s t c taken ∧
      Session.Moves (d.Offers ctx fleet) ctx.now ((t.close ctx.now c).commitRide c taken)
        (d.pass ctx fleet).session ∧
      t.report.committed = earlier ∧ ride = ⟨c.request, c.passenger, c.vehicle⟩ := by
  obtain ⟨s, s', pre, post, first, move, rest, same, more⟩ := exists_step_adding
    (fun s : Session φ => s.report.committed) (fun _ _ move => (Session.Move.continues move).committed)
    (synced_moves ctx fleet sound) rfl told
  obtain ⟨t, c, taken, given, rfl, own, rfl⟩ := move.ride_inv more
  exact ⟨s, t, c, taken, first, given, rest, by rw [same, List.append_nil, given.committed], own⟩

end Dispatcher

/-! ## Vehicles that are supplied -/

section Supply

variable {fleet f : ScheduledFleet} {v : VehicleId}

lemma Spared.vehicle? (spared : Spared v fleet f) : f.vehicle? v = fleet.vehicle? v := by
  induction spared with
  | refl => rfl
  | tail _ other committed ih => exact (ScheduledFleet.vehicle?_commit other committed).trans ih

/-- A vehicle that is supplied is indexed where and when it is free, or the cycle has seen it so, and in
service then. -/
lemma Supplied.near_or_seen {d : Dispatcher} {now : Time} {s : Session ScheduledFleet} {e : VehicleEntry}
    (supplied : Supplied now (d.view now fleet) (d.planned now fleet) s e) :
    (s.state.zones.vehicles.place? e.id = some e.place ∧ e.availableAt = now) ∨
      ∃ x, s.fleet.vehicle? e.id = some x ∧ x.isOutOfService now = false ∧ e.place = x.finalPlace ∧
        e.availableAt = x.availableAt now ∧ ¬ x.serviceEnd ≤ x.availableAt now := by
  have seen (member : e ∈ (d.view now fleet).vehicles)
      (spared : Spared e.id (d.planned now fleet).fleet s.fleet) :
      ∃ x, s.fleet.vehicle? e.id = some x ∧ x.isOutOfService now = false ∧ e.place = x.finalPlace ∧
        e.availableAt = x.availableAt now ∧ ¬ x.serviceEnd ≤ x.availableAt now := by
    obtain ⟨x, found, serves, _, rest⟩ := Snapshot.of_mem_vehicles member
    exact ⟨x, spared.vehicle?.trans found, serves, rest⟩
  cases supplied with
  | near placed now_ => exact .inl ⟨placed, now_⟩
  | idle member _ spared => exact .inr (seen (List.mem_filter.mp member).1 spared)
  | free member spared =>
    exact .inr (seen member (spared (Snapshot.nodup_vehicles (ScheduledFleet.nodup_vehicleIds _))))

/-- In a cycle whose index is in line, a vehicle that is supplied is in service, and still so when it is
free. -/
lemma Supplied.serves {d : Dispatcher} {now : Time} {s : Session ScheduledFleet} {e : VehicleEntry}
    (supplied : Supplied now (d.view now fleet) (d.planned now fleet) s e) (inLine : s.InLine now) :
    ∃ x, s.fleet.vehicle? e.id = some x ∧ x.isOutOfService now = false ∧
      e.availableAt = x.availableAt now ∧ ¬ x.serviceEnd ≤ x.availableAt now := by
  rcases supplied.near_or_seen with ⟨placed, now_⟩ | ⟨x, found, serves, _, rest⟩
  · have idle := inLine.idle e.id (ZoneMap.contains_of_place? placed)
    obtain ⟨x, found, serves, free⟩ := ScheduledFleet.isIdle_iff.mp idle
    have here := Vehicle.availableAt_of_isFree serves free
    exact ⟨x, found, serves, now_.trans here.symm, Vehicle.serves_of_isFree serves free⟩
  · exact ⟨x, found, serves, rest⟩

end Supply

end RideDispatch

import Mathlib.Logic.Relation
import RideDispatch.Dispatcher
import RideDispatch.Proofs.State

/-!
# The steps of a cycle

Whatever the settings are, all that a cycle does to the state of a dispatcher is done in small steps: it
brings the index in line with the fleet, counts attempts, opens a confirmation, or closes a complete one
with a ride or without. `Session.Step` is that relation. `Dispatcher.pass_steps` says that a cycle is a
path of such steps from `Dispatcher.begin`, where only the due confirmations have been accepted; what
every step preserves, for instance that the state is sound (`Step.sound`), a cycle preserves.
-/

namespace RideDispatch

namespace Session

section Parts

variable {φ : Type} {s : Session φ} {now : Time} {c : Confirmation}

/-- The session that consumes a confirmation without a ride. -/
def drop (s : Session φ) (now : Time) (c : Confirmation) (refusal : Refusal) : Session φ :=
  { (s.close now c).note refusal.astray with
    report := s.report.addDropped c.request refusal.reason }

lemma close_sound (now : Time) (h : s.state.Sound) (held : s.state.registry.Holds c) :
    (s.close now c).state.Sound where
  registry := h.registry.unregister held
  queue := h.queue

lemma holds_opened {request : Request} {vehicle : VehicleId} {pickup : Route}
    {event : ConfirmationEvent} {registry : Registry}
    (added : s.state.registry.add request vehicle pickup now = .ok (c, event, registry)) :
    (s.opened event registry).state.registry.Holds c := by
  obtain ⟨_, _, _, rfl⟩ := Registry.add_eq_ok added
  show ((s.state.registry.register c).confirmations)[c.id]? = some c
  rw [Registry.register, Table.getElem?_insert, if_pos rfl]

/-- A confirmation that is opened for a pairing is for its request, its vehicle and its way. -/
lemma ends_of_added {p : Pairing} {request : Request} {event : ConfirmationEvent} {registry : Registry}
    (sound : s.state.Sound) (queued : s.state.queue.get? p.request = some request)
    (added : s.state.registry.add request p.vehicle p.pickup now = .ok (c, event, registry)) :
    c.request = p.request ∧ c.vehicle = p.vehicle ∧ c.pickup = p.pickup := by
  obtain ⟨rfl, _, _, _⟩ := Registry.add_eq_ok added
  exact ⟨sound.queue _ _ queued, rfl, rfl⟩

end Parts

variable {φ : Type} [Fleet φ]

/-- What a cycle does at a time. -/
inductive Step (now : Time) : Session φ → Session φ → Prop
  | sync {s : Session φ} : Step now s (s.syncVehicles now)
  | attempts {s : Session φ} (ids : List RequestId) :
    Step now s { s with
      state := { s.state with queue := ids.foldl RequestQueue.countAttempt s.state.queue } }
  | tally {s : Session φ} {report : CycleReport} :
    report.committed = s.report.committed →
    Step now s { s with report := report }
  | note {s : Session φ} (astray : Bool) : Step now s (s.note astray)
  | opens {s : Session φ} {id request vehicle pickup c event registry} :
    s.state.queue.get? id = some request →
    s.state.registry.add request vehicle pickup now = .ok (c, event, registry) →
    Step now s (s.opened event registry)
  | commits {s : Session φ} {c : Confirmation} {fleet : φ} :
    s.state.registry.Holds c →
    c.complete = true →
    s.outcome now c = .ok fleet →
    Step now s ((s.close now c).commitRide c fleet)
  | drops {s : Session φ} {c : Confirmation} {refusal : Refusal} :
    s.state.registry.Holds c →
    c.complete = true →
    s.outcome now c = .error refusal →
    Step now s (s.drop now c refusal)

/-- A path of steps at one moment. -/
abbrev Steps (now : Time) : Session φ → Session φ → Prop := Relation.ReflTransGen (Step now)

variable {s s' : Session φ} {now : Time} {c : Confirmation}

lemma outcome_eq_ok {fleet : φ} (h : s.outcome now c = .ok fleet) :
    c.accepted = true ∧ Fleet.isOutOfService s.fleet c.vehicle now = false ∧
      ∃ request, s.state.queue.get? c.request = some request ∧
        request.isExpired now = false ∧
        Fleet.commit s.fleet c.vehicle request (c.pickup.retimed now) now = .ok fleet := by
  unfold outcome at h
  split at h
  · cases h
  · rename_i accepted
    split at h
    · cases h
    · rename_i serves
      split at h
      · cases h
      · rename_i request queued
        split at h
        · cases h
        · rename_i open_
          split at h
          · rename_i committed
            cases h
            simp only [Bool.not_eq_true, Bool.not_eq_false'] at accepted serves open_
            exact ⟨accepted, serves, request, queued, open_, committed⟩
          · cases h

/-! ## Steps keep the state sound -/

/-- Every step keeps the state sound. -/
lemma Step.sound (step : Step now s s') (h : s.state.Sound) : s'.state.Sound := by
  cases step with
  | sync => exact ⟨h.registry, h.queue⟩
  | attempts ids => exact ⟨h.registry, h.queue.countAttempts⟩
  | tally => exact h
  | note => exact h
  | opens _ added =>
    obtain ⟨_, admits, rfl, rfl⟩ := Registry.add_eq_ok added
    exact ⟨h.registry.register admits, h.queue⟩
  | commits held =>
    exact ⟨(close_sound now h held).registry, h.queue.erase⟩
  | drops held => exact close_sound now h held

lemma Steps.sound (steps : Steps now s s') (h : s.state.Sound) : s'.state.Sound := by
  induction steps with
  | refl => exact h
  | tail _ step ih => exact step.sound ih

/-! ## Operations are steps -/

lemma consume_of_ok {fleet : φ} (held : s.state.registry.Holds c)
    (outcome : s.outcome now c = .ok fleet) :
    s.consume now c.id = (.committed, (s.close now c).commitRide c fleet) := by
  unfold consume
  rw [show s.state.registry.get? c.id = some c from held]
  simp only [outcome]

lemma consume_of_error {refusal : Refusal} (held : s.state.registry.Holds c)
    (outcome : s.outcome now c = .error refusal) :
    s.consume now c.id = (.dropped refusal.reason, s.drop now c refusal) := by
  unfold consume
  rw [show s.state.registry.get? c.id = some c from held]
  simp only [outcome]
  rfl

lemma consume_registry (held : s.state.registry.Holds c) :
    (s.consume now c.id).2.state.registry = s.state.registry.unregister c := by
  cases outcome : s.outcome now c with
  | ok fleet => rw [consume_of_ok held outcome]; rfl
  | error refusal => rw [consume_of_error held outcome]; rfl

lemma consume_of_absent {id : ConfirmationId} (absent : s.state.registry.get? id = none) :
    (s.consume now id).2 = s := by
  unfold consume
  rw [absent]

/-- Consuming a complete confirmation ends it with a ride or without. -/
lemma consume_steps (held : s.state.registry.Holds c) (complete : c.complete = true) :
    Steps now s (s.consume now c.id).2 := by
  cases outcome : s.outcome now c with
  | ok fleet =>
    rw [consume_of_ok held outcome]
    exact .single (.commits held complete outcome)
  | error refusal =>
    rw [consume_of_error held outcome]
    exact .single (.drops held complete outcome)

/-- Inversion for a pairing that is not a defect: its request is not queued, or a confirmation is opened
that is pending or is consumed at once. -/
lemma openConfirmation_eq_ok {p : Pairing} {placement : Placement}
    (h : s.openConfirmation now p = .ok (placement, s')) :
    (s.state.queue.get? p.request = none ∧ placement = .dropped .notUnplanned ∧
      s' = { s with report := s.report.addDropped p.request .notUnplanned }) ∨
    ∃ request c, s.state.queue.get? p.request = some request ∧
      s.state.registry.add request p.vehicle p.pickup now =
        .ok (c, c.createdEvent, s.state.registry.register c) ∧
      ((c.complete = false ∧ placement = .pending ∧
          s' = s.opened c.createdEvent (s.state.registry.register c)) ∨
        (c.complete = true ∧
          (placement, s') = (s.opened c.createdEvent (s.state.registry.register c)).consume now c.id)) := by
  unfold openConfirmation at h
  split at h
  · rename_i absent
    cases h
    exact .inl ⟨absent, rfl, rfl⟩
  · rename_i request queued
    split at h
    · cases h
    · rename_i c event registry added
      obtain ⟨_, _, rfl, rfl⟩ := Registry.add_eq_ok added
      refine .inr ⟨request, c, queued, added, ?_⟩
      simp only at h
      split at h
      · rename_i complete
        exact .inr ⟨complete, (Except.ok.inj h).symm⟩
      · rename_i pending
        cases h
        exact .inl ⟨Bool.not_eq_true _ ▸ pending, rfl, rfl⟩

lemma openConfirmation_steps {p : Pairing} {placement : Placement}
    (h : s.openConfirmation now p = .ok (placement, s')) : Steps now s s' := by
  rcases openConfirmation_eq_ok h with ⟨_, _, rfl⟩ | ⟨request, c, queued, added, outcome⟩
  · exact .single (.tally rfl)
  · have opened := Step.opens queued added
    rcases outcome with ⟨_, _, rfl⟩ | ⟨complete, consumed⟩
    · exact .single opened
    · obtain rfl : s' = _ := congrArg Prod.snd consumed
      exact .head opened (consume_steps (holds_opened added) complete)

/-- The only confirmation that a pairing can bring is its own. -/
lemma holds_openConfirmation {p : Pairing} {placement : Placement} (sound : s.state.Sound)
    (h : s.openConfirmation now p = .ok (placement, s')) (held : s'.state.registry.Holds c) :
    (c.request = p.request ∧ c.vehicle = p.vehicle ∧ c.pickup = p.pickup) ∨
      s.state.registry.Holds c := by
  rcases openConfirmation_eq_ok h with ⟨_, _, rfl⟩ | ⟨request, c', queued, added, outcome⟩
  · exact .inr held
  · obtain ⟨_, admits, _, _⟩ := Registry.add_eq_ok added
    have opened : (s.opened c'.createdEvent (s.state.registry.register c')).state.registry.Holds c := by
      rcases outcome with ⟨_, _, rfl⟩ | ⟨complete, consumed⟩
      · exact held
      · obtain rfl : s' = _ := congrArg Prod.snd consumed
        have here := holds_opened added
        rw [consume_registry here, Registry.holds_unregister here] at held
        exact held.1
    rcases (Registry.holds_register sound.registry admits).mp opened with rfl | before
    · exact .inl (ends_of_added sound queued added)
    · exact .inr before

/-- What a pairing means for the fleet, the queue and the index: nothing, or its vehicle has been given its
request, and neither of the two is listed any longer. -/
lemma openConfirmation_effect {p : Pairing} {placement : Placement} (sound : s.state.Sound)
    (made : s.openConfirmation now p = .ok (placement, s')) :
    (s'.fleet = s.fleet ∧ s'.state.queue = s.state.queue ∧ s'.state.zones = s.state.zones) ∨
      ∃ request pickup, Fleet.commit s.fleet p.vehicle request pickup now = .ok s'.fleet ∧
        s'.state.queue = s.state.queue.erase p.request ∧
        s'.state.zones = (s.state.zones.eraseRequest p.request).eraseVehicle p.vehicle := by
  rcases openConfirmation_eq_ok made with ⟨_, _, rfl⟩ | ⟨request, c, queued, added, outcome⟩
  · exact .inl ⟨rfl, rfl, rfl⟩
  · obtain ⟨same, vehicle, _⟩ := ends_of_added sound queued added
    rcases outcome with ⟨_, _, rfl⟩ | ⟨_, consumed⟩
    · exact .inl ⟨rfl, rfl, rfl⟩
    · obtain rfl : s' = _ := congrArg Prod.snd consumed
      have held := holds_opened added
      cases outcome : (s.opened c.createdEvent (s.state.registry.register c)).outcome now c with
      | error refusal =>
        rw [consume_of_error held outcome]
        exact .inl ⟨rfl, rfl, rfl⟩
      | ok fleet =>
        rw [consume_of_ok held outcome]
        obtain ⟨_, _, request, _, _, committed⟩ := outcome_eq_ok outcome
        rw [vehicle] at committed
        refine .inr ⟨request, _, committed, ?_, ?_⟩
        · rw [← same]
          rfl
        · rw [← same, ← vehicle]
          rfl

/-- A pairing leaves the other requests queued. -/
lemma openConfirmation_queue {p : Pairing} {placement : Placement} {id : RequestId} (other : id ≠ p.request)
    (sound : s.state.Sound)
    (made : s.openConfirmation now p = .ok (placement, s')) :
    s'.state.queue.get? id = s.state.queue.get? id := by
  rcases openConfirmation_effect sound made with ⟨_, queue, _⟩ | ⟨_, _, _, queue, _⟩
  · rw [queue]
  · rw [queue, RequestQueue.get?_erase, if_neg other.symm]

lemma consume_sound (h : s.state.Sound) {id : ConfirmationId} : (s.consume now id).2.state.Sound := by
  cases found : s.state.registry.get? id with
  | none =>
    rw [consume_of_absent found]
    exact h
  | some c =>
    obtain ⟨held, rfl⟩ := h.registry.get?_eq_some.mp found
    cases outcome : s.outcome now c with
    | ok fleet =>
      rw [consume_of_ok held outcome]
      exact ⟨(close_sound now h held).registry, h.queue.erase⟩
    | error refusal =>
      rw [consume_of_error held outcome]
      exact close_sound now h held

/-- Consuming a confirmation leaves the others registered. -/
lemma holds_consume (sound : s.state.Sound) {id : ConfirmationId} :
    (s.consume now id).2.state.registry.Holds c ↔ s.state.registry.Holds c ∧ c.id ≠ id := by
  cases found : s.state.registry.get? id with
  | none =>
    rw [consume_of_absent found]
    constructor
    · intro held
      refine ⟨held, ?_⟩
      rintro rfl
      exact Option.some_ne_none c (held.symm.trans found)
    · exact And.left
  | some c' =>
    obtain ⟨held', rfl⟩ := sound.registry.get?_eq_some.mp found
    rw [consume_registry held', Registry.holds_unregister held']
    constructor
    · rintro ⟨held, ne⟩
      exact ⟨held, fun same => ne (held.inj held' same)⟩
    · rintro ⟨held, ne⟩
      exact ⟨held, fun same => ne (congrArg Confirmation.id same)⟩

/-- What is left after several confirmations have been consumed. -/
lemma holds_consumeAll (h : s.state.Sound) {ids : List ConfirmationId} :
    (s.consumeAll now ids).state.registry.Holds c ↔ s.state.registry.Holds c ∧ c.id ∉ ids := by
  induction ids generalizing s with
  | nil => simp [consumeAll]
  | cons id rest ih =>
    show ((s.consume now id).2.consumeAll now rest).state.registry.Holds c ↔ _
    rw [ih (consume_sound h), holds_consume h, List.mem_cons, not_or, and_assoc]

/-- A complete confirmation is consumed. -/
def Settles (now : Time) (s s' : Session φ) : Prop :=
  ∃ c, s.state.registry.Holds c ∧ c.complete = true ∧ s' = (s.consume now c.id).2

/-- Consuming several confirmations, those of which that are held being complete, is consuming some that
are, one after the other. -/
lemma consumeAll_settles {ids : List ConfirmationId} (h : s.state.Sound)
    (complete : ∀ id ∈ ids, ∀ c, s.state.registry.get? id = some c → c.complete = true) :
    Relation.ReflTransGen (Settles now) s (s.consumeAll now ids) := by
  induction ids generalizing s with
  | nil => exact .refl
  | cons id rest ih =>
    show Relation.ReflTransGen (Settles now) s ((s.consume now id).2.consumeAll now rest)
    cases found : s.state.registry.get? id with
    | none =>
      rw [consume_of_absent found]
      exact ih h fun id' member => complete id' (List.mem_cons_of_mem _ member)
    | some c =>
      obtain ⟨held, rfl⟩ := h.registry.get?_eq_some.mp found
      refine .head ⟨c, held, complete _ List.mem_cons_self c held, rfl⟩ (ih (consume_sound h) ?_)
      intro id' member c' found'
      obtain ⟨held', rfl⟩ := (consume_sound h).registry.get?_eq_some.mp found'
      exact complete _ (List.mem_cons_of_mem _ member) c' ((holds_consume h).mp held').1

lemma consumeAll_steps {ids : List ConfirmationId} (h : s.state.Sound)
    (complete : ∀ id ∈ ids, ∀ c, s.state.registry.get? id = some c → c.complete = true) :
    Steps now s (s.consumeAll now ids) := by
  refine Relation.reflTransGen_closed ?_ _ _ (consumeAll_settles h complete)
  rintro _ _ ⟨c, held, own, rfl⟩
  exact consume_steps held own

end Session

open Session

/-! ## Passes are steps -/

section Passes

variable {φ : Type} [Fleet φ] {s s' : Session φ} {ctx : CycleContext} {limit : Nat}

lemma Session.Steps.of_note {now : Time} {astray : Bool} (steps : Steps now (s.note astray) s') :
    Steps now s s' :=
  .head (.note astray) steps

lemma Session.Steps.of_tally {now : Time} {report : CycleReport}
    (steps : Steps now { s with report := report } s')
    (same : report.committed = s.report.committed) : Steps now s s' :=
  .head (.tally same) steps

lemma Greedy.offerRequests_steps {ids : List RequestId} {idle : Nat} :
    Steps ctx.now s (offerRequests ctx limit ids idle s).session := by
  induction ids generalizing idle s with
  | nil => exact .refl
  | cons id rest ih =>
    unfold offerRequests
    split
    · exact ih
    · split
      · exact .of_tally ih rfl
      · split
        · exact ih
        · rename_i request _
          simp only
          apply Steps.of_note
          split
          · exact .of_tally ih rfl
          · split
            · exact .refl
            · rename_i next made
              exact (openConfirmation_steps made).trans ih

lemma Greedy.offerVehicles_steps {vehicles : List VehicleEntry} :
    Steps ctx.now s (offerVehicles ctx limit vehicles s).session := by
  induction vehicles generalizing s with
  | nil => exact .refl
  | cons vehicle rest ih =>
    unfold offerVehicles
    split
    · exact .refl
    · split
      · exact ih
      · simp only
        apply Steps.of_note
        split
        · exact ih
        · split
          · exact .refl
          · rename_i next made
            exact (openConfirmation_steps made).trans ih

lemma Greedy.schedule_steps {settings : Settings} {planning : List RequestId}
    {snapshot : Snapshot} :
    Steps ctx.now s (schedule settings ctx planning snapshot s).session := by
  unfold schedule
  split
  · simp only
    split
    · exact offerVehicles_steps
    · exact offerVehicles_steps.tail (.tally rfl)
  · exact offerRequests_steps

lemma Batch.openAll_steps {pairings : List Pairing} {now : Time} :
    Steps now s (openAll now pairings s).session := by
  induction pairings generalizing s with
  | nil => exact .refl
  | cons pairing rest ih =>
    unfold openAll
    split
    · exact .refl
    · rename_i next made
      exact (openConfirmation_steps made).trans ih

lemma Batch.schedule_steps [Matching.Solver] {settings : Settings} {resolution : Resolution}
    {snapshot : Snapshot} :
    Steps ctx.now s (schedule settings resolution ctx snapshot s).session := by
  unfold schedule
  simp only
  split
  · exact .refl
  · exact .of_note (.of_tally openAll_steps rfl)

lemma Session.schedule_steps [Matching.Solver] {settings : Settings} {resolution : Resolution}
    {planning : List RequestId} {snapshot : Snapshot} :
    Steps ctx.now s (s.schedule settings resolution ctx planning snapshot).session := by
  unfold Session.schedule
  split
  · exact Greedy.schedule_steps
  · exact Batch.schedule_steps

end Passes

/-! ## A cycle is a path of steps -/

namespace Dispatcher

variable {φ : Type} {d : Dispatcher} {now : Time} {fleet : φ}

/-- The beginning of a cycle: the confirmations that are due have been accepted. -/
def begin (d : Dispatcher) (now : Time) (fleet : φ) : Session φ where
  state := { d.state with registry := (d.state.registry.tick now).2 }
  fleet := fleet
  events := []
  report := { now := now, strategy := d.settings.strategy.name }
  astray := false

lemma begin_sound (h : d.state.Sound) : (d.begin now fleet).state.Sound where
  registry := h.registry.tick
  queue := h.queue

variable [Fleet φ] {ctx : CycleContext}

/-- The cycle that is ready to make pairings: earlier pairings are settled and attempts counted. -/
def planned (d : Dispatcher) (now : Time) (fleet : φ) : Session φ :=
  let s := d.settle now fleet
  let planning := planning s.state
  let queue := planning.foldl RequestQueue.countAttempt s.state.queue
  let snapshot := Snapshot.take (planning.filterMap queue.get?) s.fleet s.state.registry
    d.settings now
  { s with
    state := { s.state with queue := queue }
    report := { s.report with planned := planning.length, horizon := some snapshot.horizon } }

/-- The requests that a cycle plans. -/
def plans (d : Dispatcher) (now : Time) (fleet : φ) : List RequestId :=
  planning (d.settle now fleet).state

/-- What a cycle sees before it makes pairings. -/
def view (d : Dispatcher) (now : Time) (fleet : φ) : Snapshot :=
  let s := d.planned now fleet
  Snapshot.take ((d.plans now fleet).filterMap s.state.queue.get?) s.fleet s.state.registry
    d.settings now

/-- The pass in which a cycle makes its pairings. Without a request to plan there is none. -/
def pass [Matching.Solver] (d : Dispatcher) (ctx : CycleContext) (fleet : φ) : PassResult φ :=
  if (d.plans ctx.now fleet).isEmpty then { session := d.planned ctx.now fleet }
  else (d.planned ctx.now fleet).schedule d.settings d.resolution ctx (d.plans ctx.now fleet)
    (d.view ctx.now fleet)

/-- A cycle gives what its pass has left. -/
lemma runCycle_eq [Matching.Solver] : d.runCycle ctx fleet = {
    dispatcher := { d with state := (d.pass ctx fleet).session.state }
    fleet := (d.pass ctx fleet).session.fleet
    events := (d.pass ctx fleet).session.events
    report := match (d.pass ctx fleet).defect with
      | some e => .error e
      | none => .ok (d.pass ctx fleet).session.report
    astray := (d.pass ctx fleet).session.astray } := rfl

lemma runCycle_state [Matching.Solver] :
    (d.runCycle ctx fleet).dispatcher.state = (d.pass ctx fleet).session.state := rfl

lemma runCycle_fleet [Matching.Solver] :
    (d.runCycle ctx fleet).fleet = (d.pass ctx fleet).session.fleet := rfl

lemma runCycle_events [Matching.Solver] :
    (d.runCycle ctx fleet).events = (d.pass ctx fleet).session.events := rfl

/-- A report is that of the pass. -/
lemma report_eq_ok [Matching.Solver] {report : CycleReport} (h : (d.runCycle ctx fleet).report = .ok report) :
    report = (d.pass ctx fleet).session.report := by
  rw [runCycle_eq] at h
  simp only at h
  split at h
  · cases h
  · exact (Except.ok.inj h).symm

/-- The session after the confirmations that are due have been accepted and the index has been brought in
line with the fleet. -/
def synced (d : Dispatcher) (now : Time) (fleet : φ) : Session φ := (d.begin now fleet).syncVehicles now

lemma synced_sound (h : d.state.Sound) : (d.synced now fleet).state.Sound :=
  Step.sync.sound (begin_sound h)

/-- The session after the complete confirmations have been consumed, too. -/
def consumed (d : Dispatcher) (now : Time) (fleet : φ) : Session φ :=
  (d.synced now fleet).consumeAll now (d.synced now fleet).state.registry.completedIds

/-- The confirmations that are to be consumed are complete. -/
lemma complete_of_listed (h : d.state.Sound) (id : ConfirmationId)
    (listed : id ∈ (d.synced now fleet).state.registry.completedIds) (c : Confirmation)
    (found : (d.synced now fleet).state.registry.get? id = some c) : c.complete = true := by
  have sound : (d.synced now fleet).state.Sound := synced_sound h
  obtain ⟨c', held', complete, rfl⟩ := sound.registry.mem_completedIds.mp listed
  obtain ⟨held, same⟩ := sound.registry.get?_eq_some.mp found
  rw [held.inj held' same]
  exact complete

lemma consumed_steps (h : d.state.Sound) : Steps now (d.synced now fleet) (d.consumed now fleet) :=
  consumeAll_steps (synced_sound h) (complete_of_listed h)

/-- The index is brought in line again only if a vehicle has been given a ride. -/
lemma settle_eq : d.settle now fleet =
    if (d.consumed now fleet).report.committed.isEmpty then d.consumed now fleet
    else (d.consumed now fleet).syncVehicles now := rfl

lemma settle_steps (h : d.state.Sound) : Steps now (d.synced now fleet) (d.settle now fleet) := by
  rw [settle_eq]
  split
  · exact consumed_steps h
  · exact (consumed_steps h).tail .sync

lemma planned_steps (h : d.state.Sound) : Steps now (d.synced now fleet) (d.planned now fleet) :=
  ((settle_steps h).tail (.attempts (d.plans now fleet))).tail (.tally rfl)

lemma synced_steps [Matching.Solver] (h : d.state.Sound) :
    Steps ctx.now (d.synced ctx.now fleet) (d.pass ctx fleet).session := by
  unfold pass
  split
  · exact planned_steps h
  · exact (planned_steps h).trans schedule_steps

/-- A cycle is a path of steps from its beginning. -/
theorem pass_steps [Matching.Solver] (h : d.state.Sound) :
    Steps ctx.now (d.begin ctx.now fleet) (d.pass ctx fleet).session :=
  .head .sync (synced_steps h)

/-- A cycle keeps the state sound. -/
lemma runCycle_sound [Matching.Solver] (h : d.state.Sound) :
    (d.runCycle ctx fleet).dispatcher.state.Sound :=
  Steps.sound (pass_steps h) (begin_sound h)

end Dispatcher

/-! ## Requests come and go -/

namespace Dispatcher

variable {d : Dispatcher} {request : Request} {id : RequestId} {now : Time}

lemma submit_sound (h : d.state.Sound) : (d.submit request).state.Sound where
  registry := h.registry
  queue := h.queue.insert

/-- Only a queued request is given up, and the settings stay. -/
lemma withdraw_inv {w : Withdrawal} (gone : d.withdraw id now = some w) :
    d.state.queue.get? id = some w.request ∧ w.dispatcher.settings = d.settings := by
  unfold withdraw at gone
  split at gone
  · cases gone
  · rename_i queued
    cases gone
    exact ⟨queued, rfl⟩

/-- Giving up a queued request removes it and its confirmation, of which it tells. -/
lemma withdraw_eq (h : d.state.Sound) :
    d.withdraw id now = (d.state.queue.get? id).map fun request => {
      request := request
      dispatcher := { d with state := ⟨d.state.queue.erase id, d.state.registry.release id,
        d.state.zones.eraseRequest id⟩ }
      events := d.state.registry.farewell id now } := by
  unfold withdraw
  rw [h.registry.withdraw]
  cases d.state.queue.get? id with
  | none => rfl
  | some request =>
    unfold Registry.release Registry.farewell
    cases d.state.registry.ofRequest? id <;> rfl

lemma withdraw_sound (h : d.state.Sound) {w : Withdrawal} (gone : d.withdraw id now = some w) :
    w.dispatcher.state.Sound := by
  rw [withdraw_eq h] at gone
  obtain ⟨request, _, rfl⟩ := Option.map_eq_some_iff.mp gone
  exact ⟨h.registry.release id, h.queue.erase⟩

end Dispatcher

end RideDispatch

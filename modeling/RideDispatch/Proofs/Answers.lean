import RideDispatch.Proofs.Moves

/-!
# Answers in time

A driver is taken to accept when the confirmation is due. The dispatcher takes notice of that when it runs a
cycle, so the answer to a confirmation is told in the first cycle that begins no earlier than the
confirmation is due, which may be the cycle that opens it, and it comes to a ride or is dropped there and
then (`Dispatcher.Answers`).

Between cycles the confirmations that are held are `Registry.Waiting`. A cycle begins by completing those
that are due, and whatever it opens is complete just if it is due at once (`Registry.Timed`); all that is
complete is consumed before the cycle ends, and what is not complete is left alone (`Session.Move.keeps`).
-/

namespace RideDispatch

/-! ## What is told of a request -/

/-- Nothing that is told is about the request. -/
def Silent (q : RequestId) (told : List ConfirmationEvent) : Prop := ∀ e ∈ told, e.request ≠ q

/-- The driver accepts what an opening has asked. -/
def ConfirmationEvent.acceptance (opening : ConfirmationEvent) (now : Time) : ConfirmationEvent :=
  { opening with time := now, stage := .completed true }

section Told

variable {q : RequestId} {told more : List ConfirmationEvent} {last : Option ConfirmationEvent}

lemma Silent.append (first : Silent q told) (second : Silent q more) : Silent q (told ++ more) := by
  intro e member
  rcases List.mem_append.mp member with early | late
  · exact first e early
  · exact second e late

/-- What is pending is what has been told last, if that is an opening. -/
lemma Handshakes.pending_eq (h : Handshakes told last) :
    last = told.getLast?.filter fun e => e.stage = .created := by
  cases h with
  | nil => rfl
  | opens _ opening => simp [Option.filter, opening]
  | closes _ closing =>
    obtain ⟨⟨accepted, stage⟩, _⟩ := closing
    simp [Option.filter, stage]

/-- What follows on handshakes without a pending one are handshakes. -/
lemma Handshakes.rest (h : Handshakes (told ++ more) last) (closed : Handshakes told none) :
    Handshakes more last := by
  induction more using List.reverseRecOn generalizing last with
  | nil =>
    rw [List.append_nil] at h
    rw [h.pending_eq, ← closed.pending_eq]
    exact .nil
  | append_singleton init e ih =>
    rw [← List.append_assoc] at h
    rcases h.snoc_inv with ⟨earlier, opening, rfl⟩ | ⟨opening, earlier, closing, rfl⟩
    · exact .opens (ih earlier) opening
    · exact .closes (ih earlier) closing

/-- Once no confirmation of a request is held, what is told about it are handshakes anew. -/
lemma Registry.TellsBy.anew {r r' : Registry}
    (h : r.TellsBy Confirmation.request ConfirmationEvent.request told)
    (free : ∀ c, r.Holds c → c.request ≠ q)
    (h' : r'.TellsBy Confirmation.request ConfirmationEvent.request (told ++ more)) :
    ∃ last, Handshakes (more.filter fun e => e.request = q) last := by
  obtain ⟨pending, shakes, open_⟩ := h q
  obtain ⟨last, all, _⟩ := h' q
  have closed : pending = none := by
    cases pending with
    | none => rfl
    | some e =>
      obtain ⟨c, held, own, _⟩ := (open_ e).mp rfl
      exact absurd own (free c held)
  rw [List.filter_append] at all
  exact ⟨last, all.rest (closed ▸ shakes)⟩

end Told

/-! ## Registries in time -/

namespace Registry

variable {r : Registry} {delay now : Time} {c : Confirmation}

/-- Every confirmation that is held is open, and due when the delay is over. -/
structure Waiting (r : Registry) (delay : Time) : Prop where
  delay_eq : r.delay = delay
  due : ∀ c, r.Holds c → c.dueAt = c.createdAt + delay
  open_ : ∀ c, r.Holds c → c.complete = false

/-- Every confirmation that is held is due when the delay is over, and complete if that is by now. -/
structure Timed (r : Registry) (delay now : Time) : Prop where
  delay_eq : r.delay = delay
  due : ∀ c, r.Holds c → c.dueAt = c.createdAt + delay
  complete : ∀ c, r.Holds c → (c.complete = true ↔ c.dueAt ≤ now)

lemma Waiting.empty : (Registry.empty delay).Waiting delay where
  delay_eq := rfl
  due _ held := (not_holds_empty held).elim
  open_ _ held := (not_holds_empty held).elim

lemma Waiting.release (h : r.Waiting delay) (sound : r.Sound) (q : RequestId) :
    (r.release q).Waiting delay where
  delay_eq := (delay_release q).trans h.delay_eq
  due c held := h.due c ((holds_release sound).mp held).1
  open_ c held := h.open_ c ((holds_release sound).mp held).1

lemma Waiting.tick (h : r.Waiting delay) (now : Time) : (r.tick now).2.Timed delay now where
  delay_eq := h.delay_eq
  due := by
    intro c held
    obtain ⟨c, before, rfl⟩ := holds_tick.mp held
    rw [Confirmation.dueAt_tick, Confirmation.createdAt_tick]
    exact h.due c before
  complete := by
    intro c held
    obtain ⟨c, before, rfl⟩ := holds_tick.mp held
    have open_ := h.open_ c before
    rw [Confirmation.dueAt_tick]
    by_cases due : c.dueAt ≤ now
    · rw [Confirmation.tick_of_due open_ due]
      exact iff_of_true rfl due
    · rw [Confirmation.tick_of_early due, open_]
      exact iff_of_false Bool.false_ne_true due

lemma Timed.unregister (h : r.Timed delay now) (held : r.Holds c) : (r.unregister c).Timed delay now where
  delay_eq := h.delay_eq
  due c' held' := h.due c' ((holds_unregister held).mp held').1
  complete c' held' := h.complete c' ((holds_unregister held).mp held').1

end Registry

namespace Session

section Timed

variable {φ : Type} [Fleet φ] {s s' : Session φ} {delay now : Time} {c c' : Confirmation} {p : Pairing}

lemma Step.timed (step : Step now s s') (sound : s.state.Sound)
    (h : s.state.registry.Timed delay now) : s'.state.registry.Timed delay now := by
  cases step with
  | sync => exact h
  | attempts => exact h
  | tally => exact h
  | note => exact h
  | commits held => exact h.unregister held
  | drops held => exact h.unregister held
  | @opens id request vehicle pickup c event registry queued added =>
    obtain ⟨new, admits, rfl, rfl⟩ := Registry.add_eq_ok added
    refine ⟨h.delay_eq, ?_, ?_⟩
    · intro c' held
      rcases (Registry.holds_register sound.registry admits).mp held with rfl | before
      · rw [new, ← h.delay_eq]
        rfl
      · exact h.due c' before
    · intro c' held
      rcases (Registry.holds_register sound.registry admits).mp held with rfl | before
      · rw [new]
        exact decide_eq_true_iff
      · exact h.complete c' before

lemma Steps.timed (steps : Steps now s s') (sound : s.state.Sound)
    (h : s.state.registry.Timed delay now) : s'.state.registry.Timed delay now := by
  induction steps with
  | refl => exact h
  | tail before step ih => exact step.timed (Steps.sound before sound) ih

end Timed

/-! ## Moves leave alone what is not complete -/

section Keeps

variable {φ : Type} {s s' next : Session φ} {now : Time} {c c' : Confirmation} {p : Pairing}

/-- A confirmation is held throughout, and nothing is told about its request. -/
structure Keeps (c : Confirmation) (s s' : Session φ) : Prop where
  holds : s'.state.registry.Holds c
  silent : ∃ told, s'.events = s.events ++ told ∧ Silent c.request told

lemma Keeps.of_same (registry : s'.state.registry = s.state.registry) (events : s'.events = s.events)
    (held : s.state.registry.Holds c) : Keeps c s s' :=
  ⟨registry ▸ held, [], by rw [events, List.append_nil], List.forall_mem_nil _⟩

lemma Keeps.trans (first : Keeps c s s') (second : Keeps c s' next) : Keeps c s next := by
  obtain ⟨_, told, events, silent⟩ := first
  obtain ⟨held, more, events', silent'⟩ := second
  exact ⟨held, told ++ more, by rw [events', events, List.append_assoc], silent.append silent'⟩

/-- A confirmation that is opened is another one than those that are held. -/
lemma asking_keeps (opens : s.Opens now p c') (sound : s.state.Sound) (held : s.state.registry.Holds c) :
    Keeps c s (s.asking c') where
  holds := (Registry.holds_register sound.registry opens.admits).mpr (.inr held)
  silent := by
    refine ⟨[c'.createdEvent], rfl, ?_⟩
    intro e member
    rw [List.mem_singleton.mp member]
    intro same
    have waiting : s.state.registry.isWaitingRequest c'.request = true :=
      sound.registry.isWaitingRequest_iff.mpr ⟨c, held, same.symm⟩
    rw [opens.admits.request] at waiting
    cases waiting

lemma Opens.id_ne (opens : s.Opens now p c') (sound : s.state.Sound) (held : s.state.registry.Holds c) :
    c.id ≠ c'.id := by
  intro same
  have below := sound.registry.id_lt held
  rw [same, opens.admits.id] at below
  exact Nat.lt_irrefl _ below

variable [Fleet φ] {fit : Session φ → Pairing → Prop}

/-- Consuming a confirmation says nothing about another one. -/
lemma consume_keeps (sound : s.state.Sound) (held : s.state.registry.Holds c) {id : ConfirmationId}
    (other : c.id ≠ id) : Keeps c s (s.consume now id).2 := by
  cases found : s.state.registry.get? id with
  | none =>
    rw [consume_of_absent found]
    exact .of_same rfl rfl held
  | some c' =>
    obtain ⟨held', rfl⟩ := sound.registry.get?_eq_some.mp found
    refine ⟨(holds_consume sound).mpr ⟨held, other⟩, _, consume_events held', ?_⟩
    intro e member
    rw [List.mem_singleton.mp member]
    intro same
    exact other (congrArg Confirmation.id (sound.registry.byRequest.inj held' held same)).symm

lemma consumeAll_keeps {ids : List ConfirmationId} (sound : s.state.Sound)
    (held : s.state.registry.Holds c) (others : c.id ∉ ids) : Keeps c s (s.consumeAll now ids) := by
  induction ids generalizing s with
  | nil => exact .of_same rfl rfl held
  | cons id rest ih =>
    obtain ⟨other, others⟩ := List.ne_and_not_mem_of_not_mem_cons others
    have first : Keeps c s (s.consume now id).2 := consume_keeps sound held other
    exact first.trans (ih (consume_sound sound) first.holds others)

/-- A move keeps a confirmation that is open. -/
lemma Move.keeps (move : Move fit now s s') (sound : s.state.Sound) (held : s.state.registry.Holds c)
    (open_ : c.complete = false) : Keeps c s s' := by
  cases move with
  | sync => exact .of_same rfl rfl held
  | attempts => exact .of_same rfl rfl held
  | tally => exact .of_same rfl rfl held
  | note => exact .of_same rfl rfl held
  | @settles c' held' complete =>
    refine consume_keeps sound held ?_
    intro same
    rw [held.inj held' same, complete] at open_
    cases open_
  | asks _ opens => exact asking_keeps opens sound held
  | takes _ opens =>
    have asked := asking_keeps opens sound held
    exact asked.trans (consume_keeps (opens.step.sound sound) asked.holds (opens.id_ne sound held))

lemma Moves.keeps (moves : Moves fit now s s') (sound : s.state.Sound) (held : s.state.registry.Holds c)
    (open_ : c.complete = false) : Keeps c s s' := by
  induction moves with
  | refl => exact .of_same rfl rfl held
  | tail before move ih => exact ih.trans (move.keeps (Moves.sound before sound) ih.holds open_)

/-- A move leaves nothing complete where nothing was. -/
lemma Move.open_ (move : Move fit now s s') (sound : s.state.Sound)
    (h : ∀ c, s.state.registry.Holds c → c.complete = false) :
    ∀ c, s'.state.registry.Holds c → c.complete = false := by
  intro c held
  cases move with
  | sync => exact h c held
  | attempts => exact h c held
  | tally => exact h c held
  | note => exact h c held
  | settles => exact h c ((holds_consume sound).mp held).1
  | asks _ opens pending =>
    rcases (Registry.holds_register sound.registry opens.admits).mp held with rfl | before
    · exact pending
    · exact h c before
  | takes _ opens =>
    obtain ⟨asked, other⟩ := (holds_consume (opens.step.sound sound)).mp held
    rcases (Registry.holds_register sound.registry opens.admits).mp asked with rfl | before
    · exact absurd rfl other
    · exact h c before

lemma Moves.open_ (moves : Moves fit now s s') (sound : s.state.Sound)
    (h : ∀ c, s.state.registry.Holds c → c.complete = false) :
    ∀ c, s'.state.registry.Holds c → c.complete = false := by
  induction moves with
  | refl => exact h
  | tail before move ih => exact move.open_ (Moves.sound before sound) ih

end Keeps

end Session

/-! ## Cycles -/

/-- A call that leaves the driver of a request time to answer until a moment. -/
def Call.Leaves {φ : Type} (q : RequestId) (due : Time) : Call φ → Prop
  | .submit _ => True
  | .withdraw id _ => id ≠ q
  | .cycle ctx _ => ctx.now < due

namespace Dispatcher

open Session

section Cycles

variable {φ : Type} [Fleet φ] {d : Dispatcher} {ctx : CycleContext} {fleet : φ} {c : Confirmation}
variable {call : Call φ} {calls : List (Call φ)}

/-- Between cycles every confirmation that is held waits. -/
structure Rests (d : Dispatcher) : Prop where
  sound : d.state.Sound
  waiting : d.state.registry.Waiting d.settings.confirmationDelay

lemma Rests.fresh (settings : Settings) (resolution : Resolution) : (fresh settings resolution).Rests :=
  ⟨.empty _ _, .empty⟩

lemma pass_timed (ctx : CycleContext) (fleet : φ) (h : d.Rests) :
    (d.pass ctx fleet).session.state.registry.Timed d.settings.confirmationDelay ctx.now :=
  Steps.timed (pass_steps h.sound) (begin_sound h.sound) (h.waiting.tick ctx.now)

/-- What is complete has been consumed when a cycle ends. -/
lemma pass_open (ctx : CycleContext) (fleet : φ) (h : d.Rests) :
    ∀ c, (d.pass ctx fleet).session.state.registry.Holds c → c.complete = false := by
  have sound : (d.synced ctx.now fleet).state.Sound := synced_sound h.sound
  refine Moves.open_ (consumed_moves ctx fleet h.sound) (Steps.sound (consumed_steps h.sound) sound) ?_
  intro c held
  obtain ⟨before, left⟩ := (holds_consumeAll sound).mp held
  rw [← Bool.not_eq_true]
  intro complete
  exact left (sound.registry.mem_completedIds.mpr ⟨c, before, complete, rfl⟩)

lemma settings_answer (sound : d.state.Sound) : (d.answer call).1.settings = d.settings := by
  cases call with
  | submit request => rfl
  | withdraw id now =>
    simp only [answer, withdraw_eq sound]
    cases d.state.queue.get? id <;> rfl
  | cycle ctx fleet => rfl

lemma Rests.answer (h : d.Rests) (call : Call φ) : (d.answer call).1.Rests where
  sound := answer_sound call h.sound
  waiting := by
    rw [settings_answer h.sound]
    cases call with
    | submit request => exact h.waiting
    | withdraw id now =>
      simp only [Dispatcher.answer, withdraw_eq h.sound]
      cases d.state.queue.get? id with
      | none => exact h.waiting
      | some request => exact h.waiting.release h.sound.registry id
    | cycle ctx fleet =>
      have timed := pass_timed ctx fleet h
      show (d.runCycle ctx fleet).dispatcher.state.registry.Waiting _
      rw [runCycle_state]
      exact ⟨timed.delay_eq, timed.due, pass_open ctx fleet h⟩

lemma Rests.serve (h : d.Rests) : (d.serve calls).1.Rests ∧ (d.serve calls).1.settings = d.settings := by
  induction calls generalizing d with
  | nil => exact ⟨h, rfl⟩
  | cons call rest ih =>
    obtain ⟨rests, settings⟩ := ih (h.answer call)
    exact ⟨rests, settings.trans (settings_answer h.sound)⟩

/-! ### Before a confirmation is due -/

lemma answer_keeps (h : d.Rests) (held : d.state.registry.Holds c) (leaves : call.Leaves c.request c.dueAt) :
    (d.answer call).1.state.registry.Holds c ∧ Silent c.request (d.answer call).2 := by
  cases call with
  | submit request => exact ⟨held, List.forall_mem_nil _⟩
  | withdraw id now =>
    simp only [answer, withdraw_eq h.sound]
    cases d.state.queue.get? id with
    | none => exact ⟨held, List.forall_mem_nil _⟩
    | some request =>
      refine ⟨(Registry.holds_release h.sound.registry).mpr ⟨held, Ne.symm leaves⟩, ?_⟩
      intro e member
      obtain ⟨c', found, rfl⟩ := Option.map_eq_some_iff.mp (Option.mem_toList.mp member)
      obtain ⟨_, rfl⟩ := h.sound.registry.ofRequest?_eq_some.mp found
      exact leaves
  | cycle ctx fleet =>
    have here : (d.synced ctx.now fleet).state.registry.Holds c :=
      Registry.holds_tick.mpr ⟨c, held, Confirmation.tick_of_early (Time.not_le.mpr leaves)⟩
    have kept := Moves.keeps (synced_moves ctx fleet h.sound) (synced_sound h.sound) here
      (h.waiting.open_ c held)
    obtain ⟨told, events, silent⟩ := kept.silent
    show (d.runCycle ctx fleet).dispatcher.state.registry.Holds c ∧
      Silent c.request (d.runCycle ctx fleet).events
    rw [runCycle_state, runCycle_events, events]
    exact ⟨kept.holds, silent⟩

lemma serve_keeps (h : d.Rests) (held : d.state.registry.Holds c)
    (leave : ∀ call ∈ calls, call.Leaves c.request c.dueAt) :
    (d.serve calls).1.state.registry.Holds c ∧ Silent c.request (d.serve calls).2 := by
  induction calls generalizing d with
  | nil => exact ⟨held, List.forall_mem_nil _⟩
  | cons call rest ih =>
    obtain ⟨kept, silent⟩ := answer_keeps h held (leave call List.mem_cons_self)
    obtain ⟨held', later⟩ := ih (h.answer call) kept fun call member =>
      leave call (List.mem_cons_of_mem _ member)
    exact ⟨held', silent.append later⟩

/-! ### When it is due -/

/-- In a cycle the driver accepts what an opening has asked, once `told` has been told. The request becomes
a ride of the report or is dropped, and what is told about it from then on are handshakes anew. -/
structure Answers (d : Dispatcher) (ctx : CycleContext) (fleet : φ) (opening : ConfirmationEvent)
    (told : List ConfirmationEvent) : Prop where
  accepts : ∃ rest, (d.runCycle ctx fleet).events = told ++ opening.acceptance ctx.now :: rest ∧
    ∀ calls : List (Call φ), ∃ last, Handshakes ((rest ++
      ((d.runCycle ctx fleet).dispatcher.serve calls).2).filter fun e => e.request = opening.request) last
  concludes : ∃ s s', d.Amid ctx fleet s ∧ d.Amid ctx fleet s' ∧
    s.events = told ∧ s'.events = told ++ [opening.acceptance ctx.now] ∧
    s.report.Concludes opening s'.report ∧
    ∀ report, (d.runCycle ctx fleet).report = .ok report →
      s'.report.committed <+: report.committed ∧ s'.report.dropped <+: report.dropped

/-- Where a cycle consumes a complete confirmation, its opening is answered. -/
lemma answers_of_consume {past : List ConfirmationEvent} {fit : Session φ → Pairing → Prop} {s : Session φ}
    (sound : d.state.Sound) (tells : d.state.registry.Tells past)
    (earlier : Steps ctx.now (d.begin ctx.now fleet) s) (held : s.state.registry.Holds c)
    (complete : c.complete = true)
    (later : Moves fit ctx.now (s.consume ctx.now c.id).2 (d.pass ctx fleet).session) :
    d.Answers ctx fleet c.createdEvent s.events := by
  have consumes : Steps ctx.now s (s.consume ctx.now c.id).2 := consume_steps held complete
  have soundHere : s.state.Sound := Steps.sound earlier (begin_sound sound)
  have told : (s.consume ctx.now c.id).2.events = s.events ++ [c.createdEvent.acceptance ctx.now] := by
    rw [consume_events held, Confirmation.completedEvent, soundHere.registry.accepted held, complete]
    rfl
  have continues := Moves.continues later
  obtain ⟨rest, events⟩ := continues.events
  constructor
  · refine ⟨rest, ?_, ?_⟩
    · rw [runCycle_events, ← events, told, List.append_assoc]
      rfl
    · intro calls
      have begun : (d.begin ctx.now fleet).state.registry.Tells (past ++ []) := by
        rw [List.append_nil]
        exact tells.tick
      have now_ := Steps.tells (earlier.trans consumes) (begin_sound sound) begun
      have final := Steps.tells (pass_steps sound) (begin_sound sound) begun
      rw [← runCycle_state] at final
      have next : (d.runCycle ctx fleet).dispatcher.state.Sound := runCycle_sound sound
      have after : ((d.runCycle ctx fleet).dispatcher.serve calls).1.state.registry.Tells
          ((past ++ (d.pass ctx fleet).session.events) ++
            ((d.runCycle ctx fleet).dispatcher.serve calls).2) :=
        serve_tells next final
      rw [← events, ← List.append_assoc, List.append_assoc] at after
      refine now_.byRequest.anew ?_ after.byRequest
      intro c' held' same
      obtain ⟨before, other⟩ := (holds_consume soundHere).mp held'
      exact other (congrArg Confirmation.id (soundHere.registry.byRequest.inj before held same))
  · refine ⟨s, _, ⟨earlier, consumes.trans later.steps⟩, ⟨earlier.trans consumes, later.steps⟩, rfl, told,
      consume_concludes held, ?_⟩
    intro report reported
    rw [runCycle_eq] at reported
    cases defect : (d.pass ctx fleet).defect with
    | some e =>
      rw [defect] at reported
      cases reported
    | none =>
      rw [defect] at reported
      cases reported
      exact ⟨continues.committed, continues.dropped⟩

/-- A confirmation that is held is answered in a cycle that begins when it is due, and until then nothing is
told about its request. -/
lemma answers_of_due {past : List ConfirmationEvent} (ctx : CycleContext) (fleet : φ) (h : d.Rests)
    (tells : d.state.registry.Tells past) (held : d.state.registry.Holds c) (due : c.dueAt ≤ ctx.now) :
    ∃ told, Silent c.request told ∧ d.Answers ctx fleet c.createdEvent told := by
  have sound : (d.synced ctx.now fleet).state.Sound := synced_sound h.sound
  have begun : (d.synced ctx.now fleet).state.registry.Holds (c.resolve true) := by
    rw [← Confirmation.tick_of_due (h.waiting.open_ c held) due]
    exact Registry.holds_tick.mpr ⟨c, held, rfl⟩
  -- it is one of those that are consumed first, and those before it are for other requests
  have listed : c.id ∈ (d.synced ctx.now fleet).state.registry.completedIds :=
    sound.registry.mem_completedIds.mpr ⟨_, begun, rfl, rfl⟩
  obtain ⟨before, after, all, new⟩ := List.eq_append_cons_of_mem listed
  have complete : ∀ id ∈ before ++ c.id :: after, ∀ c',
      (d.synced ctx.now fleet).state.registry.get? id = some c' → c'.complete = true := by
    rw [← all]
    exact complete_of_listed h.sound
  let s := (d.synced ctx.now fleet).consumeAll ctx.now before
  have first : Steps ctx.now (d.synced ctx.now fleet) s :=
    consumeAll_steps sound fun id member => complete id (List.mem_append_left _ member)
  have soundHere : s.state.Sound := Steps.sound first sound
  have kept : Keeps (c.resolve true) (d.synced ctx.now fleet) s := consumeAll_keeps sound begun new
  have rest : Moves (d.Offers ctx fleet) ctx.now (s.consume ctx.now c.id).2 (d.consumed ctx.now fleet) := by
    have parts : d.consumed ctx.now fleet = (s.consume ctx.now c.id).2.consumeAll ctx.now after := by
      unfold consumed
      rw [all]
      exact List.foldl_append
    rw [parts]
    refine consumeAll_moves (consume_sound soundHere) ?_
    intro id member c' found
    obtain ⟨held', rfl⟩ := (consume_sound soundHere).registry.get?_eq_some.mp found
    have before' := ((holds_consumeAll sound).mp ((holds_consume soundHere).mp held').1).1
    exact complete _ (List.mem_append_right _ (List.mem_cons_of_mem _ member)) c' before'
  have answers : d.Answers ctx fleet (c.resolve true).createdEvent s.events :=
    answers_of_consume h.sound tells (.head .sync first) kept.holds rfl
      (rest.trans (consumed_moves ctx fleet h.sound))
  refine ⟨s.events, ?_, answers⟩
  obtain ⟨told, events, silent⟩ := kept.silent
  rw [events]
  exact silent

/-! ### What becomes of an opening -/

/-- What a cycle leaves is open and not yet due. -/
lemma early_of_cycle (h : d.Rests) (held : (d.runCycle ctx fleet).dispatcher.state.registry.Holds c) :
    c.complete = false ∧ c.dueAt = c.createdAt + d.settings.confirmationDelay ∧ ctx.now < c.dueAt := by
  have timed := pass_timed ctx fleet h
  rw [runCycle_state] at held
  have open_ : c.complete = false := pass_open ctx fleet h c held
  refine ⟨open_, timed.due c held, ?_⟩
  rw [← Time.not_le, ← timed.complete c held, open_]
  exact Bool.false_ne_true

/-- A confirmation waits for its driver after the cycle in which its opening is told, and nothing more is
told about its request in that cycle. -/
structure Waits (d : Dispatcher) (ctx : CycleContext) (fleet : φ) (opening : ConfirmationEvent)
    (later : List ConfirmationEvent) (c : Confirmation) : Prop where
  opening_eq : c.createdEvent = opening
  due : c.dueAt = opening.time + d.settings.confirmationDelay
  held : (d.runCycle ctx fleet).dispatcher.state.registry.Holds c
  silent : Silent opening.request later

/-- What a cycle opens is answered in this cycle, or it waits when the cycle ends. -/
lemma answered_or_waits {past earlier later : List ConfirmationEvent} {opening : ConfirmationEvent}
    (h : d.Rests) (tells : d.state.registry.Tells past)
    (told : (d.runCycle ctx fleet).events = earlier ++ opening :: later)
    (created : opening.stage = .created) :
    opening.time = ctx.now ∧
      (opening.time + d.settings.confirmationDelay ≤ ctx.now ∧
          d.Answers ctx fleet opening (earlier ++ [opening]) ∨
        ∃ c, d.Waits ctx fleet opening later c) := by
  obtain ⟨s, s', p, c, before, after, _, opens, rfl, rfl, outcome⟩ := exists_opening h.sound told created
  have sound : s.state.Sound := Moves.sound before (synced_sound h.sound)
  obtain ⟨now_, dueAt, complete⟩ := opens.timed
  have begun : (d.begin ctx.now fleet).state.registry.Timed d.settings.confirmationDelay ctx.now :=
    h.waiting.tick ctx.now
  have due : c.dueAt = c.createdAt + d.settings.confirmationDelay := by
    rw [dueAt, now_, (Steps.timed (.head .sync before.steps) (begin_sound h.sound) begun).delay_eq]
  refine ⟨now_, ?_⟩
  rcases outcome with ⟨pending, rfl⟩ | ⟨done, rfl⟩
  · have kept := Moves.keeps after (opens.step.sound sound) opens.holds pending
    obtain ⟨more, events, silent⟩ := kept.silent
    have rest : later = more := by
      have all := (runCycle_events.symm.trans told).symm.trans events
      rw [show (s.asking c).events = s.events ++ [c.createdEvent] from rfl, List.append_assoc] at all
      exact (List.cons.inj (List.append_cancel_left all)).2
    have held : (d.runCycle ctx fleet).dispatcher.state.registry.Holds c := by
      rw [runCycle_state]
      exact kept.holds
    exact .inr ⟨c, rfl, due, held, rest ▸ silent⟩
  · have now_due : c.createdAt + d.settings.confirmationDelay ≤ ctx.now := due ▸ complete.mp done
    exact .inl ⟨now_due,
      answers_of_consume h.sound tells (.head .sync (before.steps.tail opens.step)) opens.holds done after⟩

end Cycles

/-- In whatever order requests have been submitted and given up and cycles have been run: the confirmations
that a cycle leaves are open and not yet due. A confirmation that it opens is answered in this cycle if it is
due by now. Otherwise nothing is told about its request, in this cycle and in later calls, as long as no
cycle begins when it is due and the request is not given up; and it is answered in the first cycle that
does begin when it is due. What is due later than time can tell is due at `Time.never`. -/
theorem accepted_when_due {φ : Type} [Fleet φ] (settings : Settings) (resolution : Resolution)
    (calls : List (Call φ)) (ctx : CycleContext) (fleet : φ) :
    let d := ((fresh settings resolution).serve calls).1
    let next := (d.runCycle ctx fleet).dispatcher
    (∀ c ∈ next.state.registry.toList, c.complete = false ∧
      c.dueAt = c.createdAt + settings.confirmationDelay ∧ ctx.now < c.dueAt) ∧
    ∀ earlier opening later, (d.runCycle ctx fleet).events = earlier ++ opening :: later →
      opening.stage = .created →
      let due := opening.time + settings.confirmationDelay
      opening.time = ctx.now ∧
      (due ≤ ctx.now → d.Answers ctx fleet opening (earlier ++ [opening])) ∧
      (ctx.now < due → Silent opening.request later ∧
        ∀ waiting : List (Call φ), (∀ call ∈ waiting, call.Leaves opening.request due) →
          Silent opening.request (next.serve waiting).2 ∧
          ∀ ctx' (fleet' : φ), due ≤ ctx'.now → ∃ told, Silent opening.request told ∧
            (next.serve waiting).1.Answers ctx' fleet' opening told) := by
  intro d next
  obtain ⟨rests, same⟩ : d.Rests ∧ d.settings = settings := (Rests.fresh settings resolution).serve
  have tells : d.state.registry.Tells ([] ++ ((fresh settings resolution).serve calls).2) :=
    serve_tells (.empty _ _) .empty
  have restsNext : next.Rests := rests.answer (.cycle ctx fleet)
  constructor
  · intro c member
    rw [← same]
    exact early_of_cycle rests (restsNext.sound.registry.mem_toList.mp member)
  · intro earlier opening later told created due
    obtain ⟨now_, outcome⟩ := answered_or_waits rests tells told created
    rw [same] at outcome
    refine ⟨now_, ?_, ?_⟩
    · intro due_
      rcases outcome with ⟨_, answers⟩ | ⟨c, waits⟩
      · exact answers
      · have early : ctx.now < c.dueAt := (early_of_cycle rests waits.held).2.2
        rw [waits.due, same] at early
        exact absurd early (Time.not_lt.mpr due_)
    · intro early
      rcases outcome with ⟨due_, _⟩ | ⟨c, waits⟩
      · exact absurd early (Time.not_lt.mpr due_)
      · have dueAt : c.dueAt = due := by rw [waits.due, same]
        obtain rfl := waits.opening_eq
        refine ⟨waits.silent, ?_⟩
        intro waiting leave
        rw [← dueAt] at leave
        obtain ⟨held, quiet⟩ := serve_keeps restsNext waits.held leave
        refine ⟨quiet, ?_⟩
        intro ctx' fleet' due_
        have tellsNext : next.state.registry.Tells _ := answer_tells (.cycle ctx fleet) rests.sound tells
        exact answers_of_due ctx' fleet' restsNext.serve.1 (serve_tells restsNext.sound tellsNext) held
          (dueAt ▸ due_)

end Dispatcher

end RideDispatch

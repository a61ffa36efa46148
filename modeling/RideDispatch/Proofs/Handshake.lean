import Mathlib.Data.List.Induction
import RideDispatch.Proofs.Cycle

/-!
# The handshake with drivers

The world learns of a driver confirmation twice, when it is opened and when it is closed. Whatever is
asked of a dispatcher, and in whatever order, what it tells about one request, and what it tells about
one vehicle, are openings and closings in turn (`Handshakes`), and the registry holds just the
confirmations that have been opened and not closed.

`Registry.TellsBy` ties the registry to what has been told so far. The operations of the registry keep
that tie (`TellsBy.register`, `TellsBy.unregister`, `TellsBy.tick`); by them every step of a cycle does,
and so it holds at every moment of a run of calls (`Moment`). The main statement is
`Dispatcher.handshake`.
-/

namespace RideDispatch

/-- The event closes the confirmation of whose opening another one tells. -/
def ConfirmationEvent.Closes (e opening : ConfirmationEvent) : Prop :=
  (∃ accepted, e.stage = .completed accepted) ∧ e.request = opening.request ∧
    e.passenger = opening.passenger ∧ e.vehicle = opening.vehicle

/-- Openings and closings in turn, an opening first, where each closing closes the opening before it;
and the last opening, if it is not closed. -/
inductive Handshakes : List ConfirmationEvent → Option ConfirmationEvent → Prop
  | nil : Handshakes [] none
  | opens {told e} :
    Handshakes told none →
    e.stage = .created →
    Handshakes (told ++ [e]) (some e)
  | closes {told opening e} :
    Handshakes told (some opening) →
    e.Closes opening →
    Handshakes (told ++ [e]) none

/-- An opening that has been told and that nothing told later closes. -/
def Unclosed (told : List ConfirmationEvent) (e : ConfirmationEvent) : Prop :=
  ∃ before after, told = before ++ e :: after ∧ e.stage = .created ∧
    ∀ later ∈ after, ¬ later.Closes e

section Events

variable {told before after : List ConfirmationEvent} {e reply : ConfirmationEvent}
variable {pending : Option ConfirmationEvent}

lemma ConfirmationEvent.not_closes_of_created (h : e.stage = .created) {opening} :
    ¬ e.Closes opening := by
  rintro ⟨⟨accepted, closing⟩, _⟩
  rw [h] at closing
  cases closing

/-- Inversion for what has been told last. -/
lemma Handshakes.snoc_inv (h : Handshakes (told ++ [e]) pending) :
    (Handshakes told none ∧ e.stage = .created ∧ pending = some e) ∨
      ∃ opening, Handshakes told (some opening) ∧ e.Closes opening ∧ pending = none := by
  generalize eq : told ++ [e] = all at h
  cases h with
  | nil => simp at eq
  | opens earlier opening =>
    obtain ⟨rfl, same⟩ := List.append_inj' eq rfl
    cases same
    exact .inl ⟨earlier, opening, rfl⟩
  | closes earlier closing =>
    obtain ⟨rfl, same⟩ := List.append_inj' eq rfl
    cases same
    exact .inr ⟨_, earlier, closing, rfl⟩

/-- An opening is closed by what comes next. -/
lemma Handshakes.closes_next (h : Handshakes (before ++ e :: reply :: after) pending)
    (opening : e.stage = .created) : reply.Closes e := by
  induction after using List.reverseRecOn generalizing pending with
  | nil =>
    have two : Handshakes ((before ++ [e]) ++ [reply]) pending := by simpa using h
    -- what comes before the reply ends with an opening, so the reply is not one
    rcases two.snoc_inv with ⟨earlier, _⟩ | ⟨opened, earlier, closing, _⟩
    · rcases earlier.snoc_inv with ⟨_, _, absent⟩ | ⟨_, _, closes, _⟩
      · cases absent
      · exact absurd closes (ConfirmationEvent.not_closes_of_created opening)
    · rcases earlier.snoc_inv with ⟨_, _, same⟩ | ⟨_, _, _, absent⟩
      · cases same
        exact closing
      · cases absent
  | append_singleton rest final ih =>
    have longer : Handshakes ((before ++ e :: reply :: rest) ++ [final]) pending := by
      simpa using h
    rcases longer.snoc_inv with ⟨earlier, _⟩ | ⟨_, earlier, _⟩
    · exact ih earlier
    · exact ih earlier

lemma Handshakes.created (h : Handshakes told (some e)) :
    ∃ before, told = before ++ [e] ∧ e.stage = .created := by
  cases h with
  | opens _ opening => exact ⟨_, rfl, opening⟩

end Events

namespace Registry

section Tells

variable {κ : Type} [DecidableEq κ] {r : Registry} {c : Confirmation} {e : ConfirmationEvent}
variable {key : Confirmation → κ} {about : ConfirmationEvent → κ} {told : List ConfirmationEvent}

/-- What has been told about each key are handshakes, and an opening is not closed just if a
confirmation with that key is held of which it tells. -/
def TellsBy (r : Registry) (key : Confirmation → κ) (about : ConfirmationEvent → κ)
    (told : List ConfirmationEvent) : Prop :=
  ∀ k, ∃ last, Handshakes (told.filter fun e => about e = k) last ∧
    ∀ e, last = some e ↔ ∃ c, r.Holds c ∧ key c = k ∧ c.createdEvent = e

lemma TellsBy.empty {delay : Time} : (Registry.empty delay).TellsBy key about [] := by
  intro k
  refine ⟨none, .nil, fun e => ⟨nofun, ?_⟩⟩
  rintro ⟨c, held, _⟩
  exact (not_holds_empty held).elim

lemma TellsBy.tick {now : Time} (h : r.TellsBy key about told)
    (same : ∀ c, key (c.tick now) = key c) : (r.tick now).2.TellsBy key about told := by
  intro k
  obtain ⟨last, shakes, open_⟩ := h k
  refine ⟨last, shakes, fun e => ?_⟩
  rw [open_]
  simp only [holds_tick]
  constructor
  · rintro ⟨c, held, rfl, rfl⟩
    exact ⟨c.tick now, ⟨c, held, rfl⟩, same c, Confirmation.createdEvent_tick⟩
  · rintro ⟨_, ⟨c, held, rfl⟩, rfl, rfl⟩
    exact ⟨c, held, (same c).symm, Confirmation.createdEvent_tick.symm⟩

/-- A confirmation is opened under a key that no other one has. -/
lemma TellsBy.register (h : r.TellsBy key about told) (sound : r.Sound) (admits : r.Admits c)
    (free : ∀ c', r.Holds c' → key c' ≠ key c) (same : about c.createdEvent = key c) :
    (r.register c).TellsBy key about (told ++ [c.createdEvent]) := by
  intro k
  obtain ⟨last, shakes, open_⟩ := h k
  rw [List.filter_append]
  simp only [holds_register sound admits]
  by_cases own : key c = k
  · subst own
    -- no opening under this key is left, since no confirmation with it is held
    have none_ : last = none := by
      cases last with
      | none => rfl
      | some e =>
        obtain ⟨c', held, clash, _⟩ := (open_ e).mp rfl
        exact absurd clash (free c' held)
    subst none_
    refine ⟨some c.createdEvent, ?_, fun e => ?_⟩
    · simpa [same] using Handshakes.opens shakes rfl
    · constructor
      · intro found
        exact ⟨c, .inl rfl, rfl, Option.some.inj found⟩
      · rintro ⟨c', rfl | held, clash, rfl⟩
        · rfl
        · exact absurd clash (free c' held)
  · -- nothing is told under another key
    refine ⟨last, by simpa [same, own] using shakes, fun e => ?_⟩
    rw [open_]
    constructor
    · rintro ⟨c', held, found⟩
      exact ⟨c', .inr held, found⟩
    · rintro ⟨c', rfl | held, found⟩
      · exact absurd found.1 own
      · exact ⟨c', held, found⟩

/-- A confirmation that is held is closed, and no other one has its key. -/
lemma TellsBy.unregister (h : r.TellsBy key about told) (held : r.Holds c)
    (inj : ∀ c', r.Holds c' → key c' = key c → c' = c) (closing : e.Closes c.createdEvent)
    (same : about e = key c) : (r.unregister c).TellsBy key about (told ++ [e]) := by
  intro k
  obtain ⟨last, shakes, open_⟩ := h k
  rw [List.filter_append]
  simp only [holds_unregister held]
  by_cases own : key c = k
  · subst own
    have some_ : last = some c.createdEvent := (open_ _).mpr ⟨c, held, rfl, rfl⟩
    subst some_
    refine ⟨none, ?_, fun e => ⟨nofun, ?_⟩⟩
    · simpa [same] using Handshakes.closes shakes closing
    · rintro ⟨c', ⟨held', ne⟩, clash, _⟩
      exact absurd (inj c' held' clash) ne
  · refine ⟨last, by simpa [same, own] using shakes, fun e => ?_⟩
    rw [open_]
    constructor
    · rintro ⟨c', held', found⟩
      refine ⟨c', ⟨held', ?_⟩, found⟩
      rintro rfl
      exact own found.1
    · rintro ⟨c', ⟨held', _⟩, found⟩
      exact ⟨c', held', found⟩

end Tells

variable {r : Registry} {c : Confirmation} {e : ConfirmationEvent} {told : List ConfirmationEvent}

/-- The registry agrees with what has been told, about each request and about each vehicle. -/
structure Tells (r : Registry) (told : List ConfirmationEvent) : Prop where
  byRequest : r.TellsBy Confirmation.request ConfirmationEvent.request told
  byVehicle : r.TellsBy Confirmation.vehicle ConfirmationEvent.vehicle told

lemma Tells.empty {delay : Time} : (Registry.empty delay).Tells [] :=
  ⟨.empty, .empty⟩

lemma Tells.tick {now : Time} (h : r.Tells told) : (r.tick now).2.Tells told where
  byRequest := h.byRequest.tick fun _ => Confirmation.request_tick
  byVehicle := h.byVehicle.tick fun _ => Confirmation.vehicle_tick

lemma Tells.register (h : r.Tells told) (sound : r.Sound) (admits : r.Admits c) :
    (r.register c).Tells (told ++ [c.createdEvent]) where
  byRequest := by
    refine h.byRequest.register sound admits ?_ rfl
    intro c' held clash
    have waiting := sound.isWaitingRequest_iff.mpr ⟨c', held, clash⟩
    rw [admits.request] at waiting
    cases waiting
  byVehicle := by
    refine h.byVehicle.register sound admits ?_ rfl
    intro c' held clash
    have waiting := sound.isWaitingVehicle_iff.mpr ⟨c', held, clash⟩
    rw [admits.vehicle] at waiting
    cases waiting

lemma Tells.unregister (h : r.Tells told) (sound : r.Sound) (held : r.Holds c)
    (closing : e.Closes c.createdEvent) : (r.unregister c).Tells (told ++ [e]) where
  byRequest := h.byRequest.unregister held (fun _ held' => sound.byRequest.inj held' held)
    closing closing.2.1
  byVehicle := h.byVehicle.unregister held (fun _ held' => sound.byVehicle.inj held' held)
    closing closing.2.2.2

lemma Tells.release {now : Time} (h : r.Tells told) (sound : r.Sound) (q : RequestId) :
    (r.release q).Tells (told ++ r.farewell q now) := by
  unfold Registry.release Registry.farewell
  cases own : r.ofRequest? q with
  | none => simpa using h
  | some c =>
    have held := (sound.ofRequest?_eq_some.mp own).1
    exact h.unregister sound held ⟨⟨false, rfl⟩, rfl, rfl, rfl⟩

/-- The openings that are not closed are those of the confirmations that are held. -/
lemma Tells.unclosed_iff (h : r.Tells told) (sound : r.Sound) :
    Unclosed told e ↔ ∃ c ∈ r.toList, c.createdEvent = e := by
  constructor
  · rintro ⟨before, after, rfl, opening, open_⟩
    obtain ⟨last, shakes, held⟩ := h.byRequest e.request
    rw [List.filter_append, List.filter_cons_of_pos (by simp)] at shakes
    -- what comes next about the request would close the opening
    cases rest : after.filter fun later => later.request = e.request with
    | nil =>
      rw [rest] at shakes
      rcases shakes.snoc_inv with ⟨_, _, same⟩ | ⟨_, _, closing, _⟩
      · obtain ⟨c, member, _, told⟩ := (held e).mp same
        exact ⟨c, sound.mem_toList.mpr member, told⟩
      · exact absurd closing (ConfirmationEvent.not_closes_of_created opening)
    | cons reply others =>
      rw [rest] at shakes
      have member : reply ∈ after.filter fun later => later.request = e.request := by
        rw [rest]
        exact List.mem_cons_self
      exact absurd (shakes.closes_next opening) (open_ reply (List.mem_filter.mp member).1)
  · rintro ⟨c, member, rfl⟩
    obtain ⟨last, shakes, held⟩ := h.byRequest c.request
    have same := (held c.createdEvent).mpr ⟨c, sound.mem_toList.mp member, rfl, rfl⟩
    subst same
    obtain ⟨before, ends, opening⟩ := shakes.created
    obtain ⟨_, tail, rfl, _, final⟩ := List.filter_eq_append_iff.mp ends
    obtain ⟨between, after, rfl, _, _, none_⟩ := List.filter_eq_cons_iff.mp final
    refine ⟨_ ++ between, after, by rw [List.append_assoc], opening, ?_⟩
    intro later member closing
    have found : later ∈ after.filter fun e => e.request = c.request := by
      simpa using ⟨member, closing.2.1⟩
    rw [none_] at found
    cases found

end Registry

namespace Session

variable {φ : Type} [Fleet φ] {s s' : Session φ} {now : Time} {past : List ConfirmationEvent}

/-- Every step tells what it does to the registry. -/
lemma Step.tells (step : Step now s s') (sound : s.state.Sound)
    (h : s.state.registry.Tells (past ++ s.events)) :
    s'.state.registry.Tells (past ++ s'.events) := by
  cases step with
  | sync => exact h
  | attempts => exact h
  | tally => exact h
  | note => exact h
  | opens _ added =>
    obtain ⟨_, admits, rfl, rfl⟩ := Registry.add_eq_ok added
    have told := h.register sound.registry admits
    rwa [List.append_assoc] at told
  | commits held =>
    have told := h.unregister (e := Confirmation.completedEvent _ now) sound.registry held
      ⟨⟨_, rfl⟩, rfl, rfl, rfl⟩
    rwa [List.append_assoc] at told
  | drops held =>
    have told := h.unregister (e := Confirmation.completedEvent _ now) sound.registry held
      ⟨⟨_, rfl⟩, rfl, rfl, rfl⟩
    rwa [List.append_assoc] at told

lemma Steps.tells (steps : Steps now s s') (sound : s.state.Sound)
    (h : s.state.registry.Tells (past ++ s.events)) :
    s'.state.registry.Tells (past ++ s'.events) := by
  induction steps with
  | refl => exact h
  | tail before step ih => exact step.tells (Steps.sound before sound) ih

/-- A step tells one thing at most, and never that a driver has not accepted. -/
lemma Step.events (step : Step now s s') (sound : s.state.Sound) :
    s'.events = s.events ∨
      ∃ e, s'.events = s.events ++ [e] ∧ e.stage ≠ .completed false := by
  cases step with
  | sync => exact .inl rfl
  | attempts => exact .inl rfl
  | tally => exact .inl rfl
  | note => exact .inl rfl
  | opens _ added =>
    obtain ⟨_, _, rfl, rfl⟩ := Registry.add_eq_ok added
    exact .inr ⟨_, rfl, nofun⟩
  | commits held complete =>
    refine .inr ⟨_, rfl, ?_⟩
    simp [Confirmation.completedEvent, sound.registry.accepted held, complete]
  | drops held complete =>
    refine .inr ⟨_, rfl, ?_⟩
    simp [Confirmation.completedEvent, sound.registry.accepted held, complete]

/-- What has been told on the way is what has been told at some session on the way. -/
lemma Steps.exists_between (steps : Steps now s s') (sound : s.state.Sound)
    {told : List ConfirmationEvent} (early : s.events <+: told) (late : told <+: s'.events) :
    ∃ between, Steps now s between ∧ Steps now between s' ∧ between.events = told := by
  induction steps with
  | refl => exact ⟨s, .refl, .refl, early.eq_of_length_le late.length_le⟩
  | @tail last next before step ih =>
    rcases step.events (Steps.sound before sound) with same | ⟨e, more, _⟩
    · rw [same] at late
      obtain ⟨between, first, second, here⟩ := ih late
      exact ⟨between, first, second.tail step, here⟩
    · rw [more] at late
      rcases List.prefix_concat_iff.mp late with all | late
      · exact ⟨next, before.tail step, .refl, more.trans all.symm⟩
      · obtain ⟨between, first, second, here⟩ := ih late
        exact ⟨between, first, second.tail step, here⟩

lemma Steps.accepted (steps : Steps now s s') (sound : s.state.Sound) :
    ∀ e ∈ s'.events, e ∈ s.events ∨ e.stage ≠ .completed false := by
  induction steps with
  | refl => exact fun e member => .inl member
  | tail before step ih =>
    intro e member
    rcases step.events (Steps.sound before sound) with same | ⟨e', more, accepted⟩
    · exact ih e (same ▸ member)
    · rw [more] at member
      rcases List.mem_append.mp member with member | single
      · exact ih e member
      · rw [List.mem_singleton.mp single]
        exact .inr accepted

end Session

/-! ## Runs of calls -/

/-- What can be asked of a dispatcher; a cycle runs with whatever fleet and router there are. -/
inductive Call (φ : Type) where
  | submit (request : Request)
  | withdraw (id : RequestId) (now : Time)
  | cycle (ctx : CycleContext) (fleet : φ)

namespace Dispatcher

/-- A dispatcher that knows of nothing yet. -/
def fresh (settings : Settings) (resolution : Resolution) : Dispatcher :=
  ⟨settings, resolution, .empty settings.confirmationDelay resolution⟩

lemma ofSettings_eq_ok {settings : Settings} {d : Dispatcher} (h : ofSettings settings = .ok d) :
    ∃ resolution, d = fresh settings resolution := by
  unfold ofSettings at h
  cases valid : settings.validate with
  | error => simp [valid, bind, Except.bind] at h
  | ok =>
    cases found : settings.resolution with
    | error => simp [valid, found, bind, Except.bind] at h
    | ok resolution =>
      simp only [valid, found, bind, Except.bind, pure, Except.pure] at h
      exact ⟨resolution, (Except.ok.inj h).symm⟩

section Runs

variable {φ : Type} [Fleet φ] {d : Dispatcher} {call : Call φ} {calls : List (Call φ)}

/-- The dispatcher after a call, and what the world is told. -/
def answer [Matching.Solver] (d : Dispatcher) : Call φ → Dispatcher × List ConfirmationEvent
  | .submit request => (d.submit request, [])
  | .withdraw id now =>
    match d.withdraw id now with
    | none => (d, [])
    | some w => (w.dispatcher, w.events)
  | .cycle ctx fleet =>
    let result := d.runCycle ctx fleet
    (result.dispatcher, result.events)

/-- The dispatcher after several calls, and all that the world has been told. -/
def serve [Matching.Solver] (d : Dispatcher) : List (Call φ) → Dispatcher × List ConfirmationEvent
  | [] => (d, [])
  | call :: rest =>
    let (next, events) := d.answer call
    let (final, later) := next.serve rest
    (final, events ++ later)

/-- The moments of a run of calls: what has been told so far, and the registry that goes with it. A
moment lies between two calls or in a cycle. -/
inductive Moment (d : Dispatcher) :
    List (Call φ) → List ConfirmationEvent → Registry → Prop
  | between (earlier later : List (Call φ)) :
    Moment d (earlier ++ later) (d.serve earlier).2 (d.serve earlier).1.state.registry
  | within (earlier later : List (Call φ)) {ctx : CycleContext} {fleet : φ} {s : Session φ} :
    Session.Steps ctx.now ((d.serve earlier).1.begin ctx.now fleet) s →
    Session.Steps ctx.now s ((d.serve earlier).1.pass ctx fleet).session →
    Moment d (earlier ++ .cycle ctx fleet :: later) ((d.serve earlier).2 ++ s.events)
      s.state.registry

lemma answer_sound [Matching.Solver] (call : Call φ) (sound : d.state.Sound) :
    (d.answer call).1.state.Sound := by
  cases call with
  | submit request => exact submit_sound sound
  | withdraw id now =>
    simp only [answer]
    cases gone : d.withdraw id now with
    | none => exact sound
    | some w => exact withdraw_sound sound gone
  | cycle ctx fleet => exact runCycle_sound sound

lemma answer_tells {past : List ConfirmationEvent} (call : Call φ) (sound : d.state.Sound)
    (h : d.state.registry.Tells past) :
    (d.answer call).1.state.registry.Tells (past ++ (d.answer call).2) := by
  cases call with
  | submit request =>
    rw [show (d.answer (.submit request : Call φ)).2 = [] from rfl, List.append_nil]
    exact h
  | withdraw id now =>
    simp only [answer, withdraw_eq sound]
    cases d.state.queue.get? id with
    | none => simpa using h
    | some request => exact h.release sound.registry id
  | cycle ctx fleet =>
    have start : (d.begin ctx.now fleet).state.registry.Tells (past ++ []) := by
      rw [List.append_nil]
      exact h.tick
    exact Session.Steps.tells (pass_steps sound) (begin_sound sound) start

/-- Only a request that is given up tells that a driver has not accepted. -/
lemma answer_accepted (sound : d.state.Sound) {e : ConfirmationEvent} (member : e ∈ (d.answer call).2)
    (refused : e.stage = .completed false) : ∃ id now, call = .withdraw id now := by
  cases call with
  | submit request => cases member
  | withdraw id now => exact ⟨id, now, rfl⟩
  | cycle ctx fleet =>
    rcases Session.Steps.accepted (pass_steps sound) (begin_sound sound) e member with first | ne
    · cases first
    · exact absurd refused ne

lemma serve_sound [Matching.Solver] (sound : d.state.Sound) : (d.serve calls).1.state.Sound := by
  induction calls generalizing d with
  | nil => exact sound
  | cons call rest ih => exact ih (answer_sound call sound)

lemma serve_tells {past : List ConfirmationEvent} (sound : d.state.Sound)
    (h : d.state.registry.Tells past) :
    (d.serve calls).1.state.registry.Tells (past ++ (d.serve calls).2) := by
  induction calls generalizing d past with
  | nil => simpa [serve] using h
  | cons call rest ih =>
    have told := ih (answer_sound call sound) (answer_tells call sound h)
    rwa [List.append_assoc] at told

lemma Moment.sound {told : List ConfirmationEvent} {r : Registry} (m : d.Moment calls told r)
    (sound : d.state.Sound) : r.Sound := by
  cases m with
  | between => exact (serve_sound sound).registry
  | within _ _ first _ =>
    exact (Session.Steps.sound first (begin_sound (serve_sound sound))).registry

lemma Moment.tells {told : List ConfirmationEvent} {r : Registry} (m : d.Moment calls told r)
    (sound : d.state.Sound) (h : d.state.registry.Tells []) : r.Tells told := by
  cases m with
  | between => exact serve_tells sound h
  | @within earlier _ ctx fleet _ first _ =>
    have start : ((d.serve earlier).1.begin ctx.now fleet).state.registry.Tells
        ((d.serve earlier).2 ++ []) := by
      rw [List.append_nil]
      exact (serve_tells sound h).tick
    exact Session.Steps.tells first (begin_sound (serve_sound sound)) start

lemma Moment.cons {told : List ConfirmationEvent} {r : Registry}
    (m : (d.answer call).1.Moment calls told r) :
    d.Moment (call :: calls) ((d.answer call).2 ++ told) r := by
  cases m with
  | between earlier later => exact .between (call :: earlier) later
  | within earlier later first second =>
    rw [← List.append_assoc]
    exact .within (call :: earlier) later first second

/-- Every part of what a call tells has been told at some moment. -/
lemma exists_moment_of_answer (sound : d.state.Sound) {told : List ConfirmationEvent}
    (h : told <+: (d.answer call).2) : ∃ r, d.Moment (call :: calls) told r := by
  have nothing : d.Moment (call :: calls) [] d.state.registry := .between [] _
  have all : d.Moment (call :: calls) ((d.answer call).2 ++ [])
      (d.answer call).1.state.registry := .between [call] calls
  rw [List.append_nil] at all
  cases call with
  | submit request =>
    rw [List.prefix_nil.mp h]
    exact ⟨_, nothing⟩
  | withdraw id now =>
    -- one thing is told at most
    have short : (d.answer (φ := φ) (.withdraw id now)).2.length ≤ 1 := by
      simp only [answer, withdraw_eq sound]
      cases d.state.queue.get? id with
      | none => exact Nat.zero_le _
      | some request => exact Option.length_toList_le
    rcases Nat.eq_zero_or_pos told.length with zero | some_
    · rw [List.length_eq_zero_iff.mp zero]
      exact ⟨_, nothing⟩
    · rw [h.eq_of_length_le (Nat.le_trans short some_)]
      exact ⟨_, all⟩
  | cycle ctx fleet =>
    obtain ⟨s, first, second, rfl⟩ := Session.Steps.exists_between (pass_steps sound)
      (begin_sound sound) List.nil_prefix h
    exact ⟨_, .within [] calls first second⟩

/-- Every part of what has been told has been told at some moment. -/
lemma exists_moment (sound : d.state.Sound) {told : List ConfirmationEvent}
    (h : told <+: (d.serve calls).2) : ∃ r, d.Moment calls told r := by
  induction calls generalizing d told with
  | nil =>
    rw [List.prefix_nil.mp h]
    exact ⟨_, .between [] _⟩
  | cons call rest ih =>
    rcases List.prefix_or_prefix_of_prefix h (List.prefix_append _ _) with part | ⟨later, rfl⟩
    · exact exists_moment_of_answer sound part
    · obtain ⟨r, m⟩ := ih (answer_sound call sound) ((List.prefix_append_right_inj _).mp h)
      exact ⟨r, m.cons⟩

end Runs

/-- In whatever order requests are submitted and given up and cycles are run, at every moment what has
been told about each request and about each vehicle are handshakes, and the openings that are not
closed are those of the registered confirmations. That a driver has not accepted is told only where a
request is given up. -/
theorem handshake {φ : Type} [Fleet φ] (settings : Settings) (resolution : Resolution)
    (calls : List (Call φ)) :
    (∀ told, told <+: ((fresh settings resolution).serve calls).2 →
      ∃ registry, (fresh settings resolution).Moment calls told registry) ∧
    (∀ told registry, (fresh settings resolution).Moment calls told registry →
      (∀ q, ∃ last, Handshakes (told.filter fun e => e.request = q) last) ∧
      (∀ v, ∃ last, Handshakes (told.filter fun e => e.vehicle = v) last) ∧
      ∀ e, Unclosed told e ↔ ∃ c ∈ registry.toList, c.createdEvent = e) ∧
    ∀ earlier call later, calls = earlier ++ call :: later →
      ∀ e ∈ (((fresh settings resolution).serve earlier).1.answer call).2,
        e.stage = .completed false → ∃ id now, call = .withdraw id now := by
  have sound : (fresh settings resolution).state.Sound := .empty _ _
  refine ⟨fun told => exists_moment sound, ?_, ?_⟩
  · intro told registry m
    have h := m.tells sound .empty
    refine ⟨fun q => ?_, fun v => ?_, fun e => h.unclosed_iff (m.sound sound)⟩
    · obtain ⟨last, shakes, _⟩ := h.byRequest q
      exact ⟨last, shakes⟩
    · obtain ⟨last, shakes, _⟩ := h.byVehicle v
      exact ⟨last, shakes⟩
  · intro earlier call later _ e member refused
    exact answer_accepted (serve_sound sound) member refused

end Dispatcher

end RideDispatch

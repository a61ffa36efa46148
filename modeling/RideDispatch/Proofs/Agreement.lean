import RideDispatch.Proofs.Moves

/-!
# Confirmations and the requests that they are for

What takes a request out of the queue takes its confirmation with it, so the confirmations of a dispatcher
are always for queued requests. What else there is between the two is the parameter `agree` of
`DispatchState.Agrees`. If it holds for whatever a cycle opens, and lasts while drivers accept and attempts
are counted, there is one thing that can end it: the request is submitted again
(`Dispatcher.agrees_iff`).
-/

namespace RideDispatch

/-- Every confirmation is for a queued request, with which it agrees. -/
def DispatchState.Agrees (s : DispatchState) (agree : Confirmation → Request → Prop) : Prop :=
  ∀ c, s.registry.Holds c → ∃ r, s.queue.get? c.request = some r ∧ agree c r

/-- It makes no difference whether the driver has accepted, nor how often the request has been planned. -/
structure Lasting (agree : Confirmation → Request → Prop) : Prop where
  tick : ∀ {c r} (now : Time), agree c r → agree (c.tick now) r
  tried : ∀ {c r} (n : Nat), agree c r → agree c (r.tried n)

namespace DispatchState.Agrees

variable {agree agree' : Confirmation → Request → Prop}

lemma mem_queue {s : DispatchState} {c : Confirmation} (h : s.Agrees agree) (held : s.registry.Holds c) :
    s.queue.contains c.request = true := by
  obtain ⟨r, queued, _⟩ := h c held
  rw [RequestQueue.contains_eq_isSome, queued]
  rfl

lemma empty (delay : Time) (resolution : Resolution) :
    (DispatchState.empty delay resolution).Agrees agree :=
  fun _ held => (Registry.not_holds_empty held).elim

section Requests

variable {d : Dispatcher} {now : Time} {request : Request}

/-- A request may be submitted again, if its confirmation agrees with it as it is now. -/
lemma submit (h : d.state.Agrees agree)
    (own : ∀ c, d.state.registry.Holds c → c.request = request.id → agree c request) :
    (d.submit request).state.Agrees agree := by
  intro c held
  obtain ⟨r, queued, agreed⟩ := h c held
  show ∃ r, (d.state.queue.insert request).get? c.request = some r ∧ agree c r
  rw [RequestQueue.get?_insert]
  split
  · rename_i same
    exact ⟨request, rfl, own c held same.symm⟩
  · exact ⟨r, queued, agreed⟩

/-- With a request that is given up its confirmation goes. -/
lemma withdraw {id : RequestId} {w : Withdrawal} (h : d.state.Agrees agree) (sound : d.state.Sound)
    (gone : d.withdraw id now = some w) : w.dispatcher.state.Agrees agree := by
  rw [Dispatcher.withdraw_eq sound] at gone
  obtain ⟨request, _, rfl⟩ := Option.map_eq_some_iff.mp gone
  intro c held
  obtain ⟨before, other⟩ := (Registry.holds_release sound.registry).mp held
  obtain ⟨r, queued, agreed⟩ := h c before
  refine ⟨r, ?_, agreed⟩
  rw [RequestQueue.get?_erase, if_neg other.symm]
  exact queued

/-- Drivers may accept. -/
lemma begin {φ : Type} (h : d.state.Agrees agree) (fleet : φ)
    (tick : ∀ c r, agree c r → agree (c.tick now) r) : (d.begin now fleet).state.Agrees agree := by
  intro c held
  obtain ⟨c, before, rfl⟩ := Registry.holds_tick.mp held
  obtain ⟨r, queued, agreed⟩ := h c before
  rw [Confirmation.request_tick]
  exact ⟨r, queued, tick c r agreed⟩

end Requests

section Sessions

open Session

variable {φ : Type} {s : Session φ} {now : Time} {c : Confirmation} {p : Pairing}

lemma attempts (h : s.state.Agrees agree) (ids : List RequestId)
    (tried : ∀ c r n, agree c r → agree c (r.tried n)) :
    { s.state with queue := ids.foldl RequestQueue.countAttempt s.state.queue }.Agrees agree := by
  intro c held
  obtain ⟨r, queued, agreed⟩ := h c held
  refine ⟨r.tried (ids.count c.request), ?_, tried c r _ agreed⟩
  rw [RequestQueue.get?_countAttempts, queued]
  rfl

/-- A confirmation may be opened that agrees with its request. -/
lemma asking (h : s.state.Agrees agree) (sound : s.state.Sound) (opens : s.Opens now p c)
    (own : ∀ r, s.state.queue.get? p.request = some r → agree c r) : (s.asking c).state.Agrees agree := by
  intro c' held
  rcases (Registry.holds_register sound.registry opens.admits).mp held with rfl | before
  · obtain ⟨request, _⟩ := opens.ends sound
    obtain ⟨r, queued, _⟩ := opens
    exact ⟨r, request ▸ queued, own r queued⟩
  · exact h c' before

/-- Consuming a confirmation leaves the requests of the others queued, which are for other vehicles. -/
lemma consume [Fleet φ] (h : s.state.Agrees agree) (sound : s.state.Sound)
    (held : s.state.registry.Holds c)
    (others : ∀ c' r, c'.vehicle ≠ c.vehicle → agree c' r → agree' c' r) :
    (s.consume now c.id).2.state.Agrees agree' := by
  intro c' held'
  obtain ⟨before, ne⟩ := (holds_consume sound).mp held'
  obtain ⟨r, queued, agreed⟩ := h c' before
  have request : c.request ≠ c'.request := fun same =>
    ne (congrArg Confirmation.id (sound.registry.byRequest.inj before held same.symm))
  have vehicle : c'.vehicle ≠ c.vehicle := fun same =>
    ne (congrArg Confirmation.id (sound.registry.byVehicle.inj before held same))
  refine ⟨r, ?_, others c' r vehicle agreed⟩
  cases outcome : s.outcome now c with
  | error refusal =>
    rw [consume_of_error held outcome]
    exact queued
  | ok fleet =>
    rw [consume_of_ok held outcome]
    show (s.state.queue.erase c.request).get? c'.request = some r
    rw [RequestQueue.get?_erase, if_neg request]
    exact queued

end Sessions

end DispatchState.Agrees

/-! ## Cycles -/

section Cycles

variable {φ : Type} [Fleet φ] {s s' : Session φ} {fit : Session φ → Pairing → Prop} {now : Time}
variable {agree : Confirmation → Request → Prop}

/-- Whatever is opened for a pairing that may be made agrees with its request. -/
def Session.OpensWith (fit : Session φ → Pairing → Prop) (now : Time)
    (agree : Confirmation → Request → Prop) : Prop :=
  ∀ (s : Session φ) p c r, fit s p → s.Opens now p c → s.state.queue.get? p.request = some r → agree c r

lemma Session.Move.agrees (move : Move fit now s s') (sound : s.state.Sound) (h : s.state.Agrees agree)
    (lasting : Lasting agree) (opening : OpensWith fit now agree) : s'.state.Agrees agree := by
  cases move with
  | sync => exact h
  | attempts ids => exact h.attempts ids fun _ _ n => lasting.tried n
  | tally => exact h
  | note => exact h
  | settles held => exact h.consume sound held fun _ _ _ agreed => agreed
  | asks fits opens => exact h.asking sound opens fun r => opening _ _ _ r fits opens
  | takes fits opens =>
    have asked := h.asking sound opens fun r => opening _ _ _ r fits opens
    exact asked.consume (opens.step.sound sound) opens.holds fun _ _ _ agreed => agreed

lemma Session.Moves.agrees (moves : Moves fit now s s') (sound : s.state.Sound) (h : s.state.Agrees agree)
    (lasting : Lasting agree) (opening : OpensWith fit now agree) : s'.state.Agrees agree := by
  induction moves with
  | refl => exact h
  | tail before move ih => exact move.agrees (Moves.sound before sound) ih lasting opening

namespace Dispatcher

variable {d : Dispatcher} {ctx : CycleContext} {fleet : φ} {calls : List (Call φ)} {call : Call φ}

lemma synced_agrees (h : d.state.Agrees agree) (lasting : Lasting agree) :
    (d.synced now fleet).state.Agrees agree :=
  h.begin fleet fun _ _ => lasting.tick now

lemma runCycle_agrees (sound : d.state.Sound) (h : d.state.Agrees agree) (lasting : Lasting agree)
    (opening : Session.OpensWith (d.Offers ctx fleet) ctx.now agree) :
    (d.runCycle ctx fleet).dispatcher.state.Agrees agree :=
  (synced_moves ctx fleet sound).agrees (synced_sound sound) (synced_agrees h lasting) lasting opening

/-! ## Calls -/

lemma serve_concat (d : Dispatcher) (calls : List (Call φ)) (call : Call φ) :
    (d.serve (calls ++ [call])).1 = ((d.serve calls).1.answer call).1 := by
  induction calls generalizing d with
  | nil => rfl
  | cons first rest ih => exact ih (d.answer first).1

/-- Whatever is opened in one of the cycles agrees with its request. -/
def OpeningsAgree (calls : List (Call φ)) (agree : Confirmation → Request → Prop) : Prop :=
  ∀ ctx fleet, .cycle ctx fleet ∈ calls →
    ∀ d : Dispatcher, Session.OpensWith (d.Offers ctx fleet) ctx.now agree

lemma answer_agrees (sound : d.state.Sound) (h : d.state.Agrees agree) (lasting : Lasting agree)
    (openings : OpeningsAgree [call] agree)
    (again : ∀ request, call = .submit request →
      ∀ c, d.state.registry.Holds c → c.request = request.id → agree c request) :
    (d.answer call).1.state.Agrees agree := by
  cases call with
  | submit request => exact h.submit (again request rfl)
  | withdraw id now =>
    simp only [answer]
    cases gone : d.withdraw id now with
    | none => exact h
    | some w => exact h.withdraw sound gone
  | cycle ctx fleet =>
    exact runCycle_agrees sound h lasting (openings ctx fleet (List.mem_singleton_self _) d)

/-- Confirmations agree with the queue throughout a run of calls just if whatever is submitted again agrees
with the confirmation that is held for it at that moment. -/
theorem agrees_iff (sound : d.state.Sound) (h : d.state.Agrees agree) (lasting : Lasting agree)
    (openings : OpeningsAgree calls agree) :
    (∀ earlier, earlier <+: calls → (d.serve earlier).1.state.Agrees agree) ↔
      ∀ earlier request, earlier ++ [.submit request] <+: calls →
        ∀ c, (d.serve earlier).1.state.registry.Holds c → c.request = request.id → agree c request := by
  constructor
  · intro always earlier request part c held own
    have after := always _ part
    rw [serve_concat] at after
    obtain ⟨r, queued, agreed⟩ := after c held
    replace queued : ((d.serve earlier).1.state.queue.insert request).get? c.request = some r := queued
    rw [RequestQueue.get?_insert, if_pos own.symm] at queued
    rw [Option.some.inj queued]
    exact agreed
  · intro again earlier
    induction earlier using List.reverseRecOn with
    | nil => exact fun _ => h
    | append_singleton earlier call ih =>
      intro part
      have before := (List.prefix_append earlier [call]).trans part
      rw [serve_concat]
      refine answer_agrees (serve_sound sound) (ih before) lasting ?_ ?_
      · intro ctx fleet member
        refine openings ctx fleet (part.subset (List.mem_append_right _ member))
      · rintro request rfl
        exact again earlier request part

/-- Whatever is called, every confirmation is for a queued request. -/
lemma serve_queued (settings : Settings) (resolution : Resolution) (calls : List (Call φ)) :
    ((fresh settings resolution).serve calls).1.state.Agrees fun _ _ => True :=
  (agrees_iff (.empty _ _) (.empty _ _) ⟨fun _ _ => trivial, fun _ _ => trivial⟩
    fun _ _ _ _ _ _ _ _ _ _ _ => trivial).mpr (fun _ _ _ _ _ _ => trivial) calls List.prefix_rfl

end Dispatcher

end Cycles

end RideDispatch

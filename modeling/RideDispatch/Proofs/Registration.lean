import Mathlib.Data.List.Induction
import RideDispatch.Proofs.InPlace

/-!
# The registry over any sequence of actions

A registry keeps three tables by hand. An `Office.Action` is one of the four operations on it, with whatever
arguments and at whatever time, and `Office.after` is what a sequence of them leaves of an empty registry,
each done in place. `Office.registration` says that the indexes are then the inverse of the confirmations,
that a failed operation leaves no trace, and where each registered confirmation comes from: it is what one of
the actions has opened (`Office.Traced`), complete just if it was due at once or the clock has ticked since
when it was due.

What one action can do is said once (`Office.Acts`); the rest is by cases on that.
-/

namespace RideDispatch

/-- The identities of the confirmations are the keys of their table. -/
lemma Registry.Sound.ids_eq {r : Registry} (h : r.Sound) :
    r.toList.map Confirmation.id = r.confirmations.keys := by
  unfold toList
  rw [Table.values_eq_map_toList, List.map_map, ← Std.ExtTreeMap.map_fst_toList_eq_keys]
  apply List.map_congr_left
  intro entry member
  exact h.id_eq (Std.ExtTreeMap.mem_toList_iff_getElem?_eq_some.mp member)

/-- What an index finds, without the identities that confirmations know of themselves. -/
lemma Registry.Sound.find_iff {κ : Type} [Ord κ] [Std.TransOrd κ] {r : Registry}
    {index : Std.ExtTreeMap κ ConfirmationId} {key : Confirmation → κ} (sound : r.Sound)
    (h : r.Indexes index key) (k : κ) (id : ConfirmationId) :
    index[k]? = some id ↔ ∃ c : Confirmation, r.confirmations[id]? = some c ∧ key c = k := by
  rw [h]
  constructor
  · intro indexed
    obtain ⟨c, held, rfl, own⟩ := indexed
    exact ⟨c, held, own⟩
  · intro registered
    obtain ⟨c, found, own⟩ := registered
    obtain rfl := sound.id_eq found
    exact ⟨c, found, rfl, own⟩

namespace Office

/-- An operation on a registry. -/
inductive Action where
  | add (request : Request) (vehicle : VehicleId) (pickup : Route) (now : Time)
  | tick (now : Time)
  | remove (id : ConfirmationId) (now : Time)
  | withdraw (request : RequestId) (now : Time)

/-- What a confirmation that stays registered becomes through an action. -/
def Action.on : Action → Confirmation → Confirmation
  | .tick now, c => c.tick now
  | _, c => c

/-- What an action leaves, also if it fails. -/
def act (o : Office) : Action → Office
  | .add request vehicle pickup now => stateAfter ((add request vehicle pickup now).run o)
  | .tick now => stateAfter ((tick now : EStateM DispatchError Office Nat).run o)
  | .remove id now => stateAfter ((remove id now : EStateM DispatchError Office (Option Confirmation)).run o)
  | .withdraw q now => stateAfter ((withdraw q now : EStateM DispatchError Office (Option Confirmation)).run o)

/-- What a sequence of actions leaves of an empty registry. -/
def after (delay : Time) (actions : List Action) : Office := actions.foldl act ⟨.empty delay, []⟩

/-- What an action can do to a registry. -/
inductive Acts (o : Office) : Action → Office → Prop
  | opens {request : Request} {vehicle : VehicleId} {pickup : Route} {now : Time} {c : Confirmation}
    {o' : Office} :
    (add request vehicle pickup now).run o = .ok c o' →
    Acts o (.add request vehicle pickup now) o'
  | ticks {now : Time} : Acts o (.tick now) ⟨(o.registry.tick now).2, o.told⟩
  | closes {a : Action} {c : Confirmation} {told : List ConfirmationEvent} :
    (∀ c', a.on c' = c') →
    o.registry.Holds c →
    Acts o a ⟨o.registry.unregister c, told⟩
  | spares {a : Action} :
    (∀ c', a.on c' = c') →
    Acts o a o

variable {o o' : Office} {a : Action} {c c' : Confirmation} {now delay : Time} {actions : List Action}
variable {request : Request} {vehicle : VehicleId} {pickup : Route}

/-! ## One action -/

/-- Inversion for an opening. -/
lemma add_run_eq_ok (h : (add request vehicle pickup now).run o = .ok c o') :
    c = o.registry.newConfirmation request vehicle pickup now ∧ o.registry.Admits c ∧
      o' = ⟨o.registry.register c, o.told ++ [c.createdEvent]⟩ := by
  rw [add_run] at h
  cases added : o.registry.add request vehicle pickup now with
  | error e =>
    rw [added] at h
    cases h
  | ok opened =>
    obtain ⟨c, e, registry⟩ := opened
    rw [added] at h
    cases h
    obtain ⟨new, admits, rfl, rfl⟩ := Registry.add_eq_ok added
    exact ⟨new, admits, rfl⟩

lemma add_run_eq_error {e : DispatchError} (h : (add request vehicle pickup now).run o = .error e o') :
    o' = o := by
  rw [add_run] at h
  cases added : o.registry.add request vehicle pickup now with
  | error e' =>
    rw [added] at h
    cases h
    rfl
  | ok opened =>
    rw [added] at h
    cases h

lemma remove_run_of_absent {id : ConfirmationId} (absent : o.registry.confirmations[id]? = none) :
    (remove id now : EStateM DispatchError _ _).run o = .ok none o := by
  unfold remove
  simp [absent]

lemma acts (sound : o.registry.Sound) (a : Action) : Acts o a (o.act a) := by
  cases a with
  | add request vehicle pickup now =>
    simp only [act]
    cases ran : (add request vehicle pickup now).run o with
    | ok c o' => exact .opens ran
    | error e o' =>
      obtain rfl := add_run_eq_error ran
      exact .spares fun _ => rfl
  | tick now => exact .ticks
  | remove id now =>
    simp only [act]
    rw [remove_run fun _ => sound.id_eq]
    unfold Registry.remove
    cases found : o.registry.confirmations[id]? with
    | none => exact .spares fun _ => rfl
    | some c =>
      obtain rfl := sound.id_eq found
      exact .closes (fun _ => rfl) found
  | withdraw q now =>
    simp only [act]
    rw [withdraw_run sound, sound.withdraw]
    cases found : o.registry.ofRequest? q with
    | none => exact .spares fun _ => rfl
    | some c => exact .closes (fun _ => rfl) (sound.ofRequest?_eq_some.mp found).1

namespace Acts

lemma sound (h : Acts o a o') (before : o.registry.Sound) : o'.registry.Sound := by
  cases h with
  | opens ran =>
    obtain ⟨_, admits, rfl⟩ := add_run_eq_ok ran
    exact before.register admits
  | ticks => exact before.tick
  | closes _ held => exact before.unregister held
  | spares => exact before

lemma delay_eq (h : Acts o a o') : o'.registry.delay = o.registry.delay := by
  cases h with
  | opens ran =>
    obtain ⟨_, _, rfl⟩ := add_run_eq_ok ran
    rfl
  | ticks => rfl
  | closes => rfl
  | spares => rfl

/-- Whatever is registered has been there before, or has just been opened. -/
lemma holds_inv (h : Acts o a o') (sound : o.registry.Sound) (held : o'.registry.Holds c') :
    (∃ c, o.registry.Holds c ∧ a.on c = c') ∨
      ∃ request vehicle pickup now, a = .add request vehicle pickup now ∧
        (add request vehicle pickup now).run o = .ok c' o' := by
  cases h with
  | @opens request vehicle pickup now c _ ran =>
    obtain ⟨_, admits, rfl⟩ := add_run_eq_ok ran
    cases (Registry.holds_register sound admits).mp held with
    | inl new =>
      subst new
      exact .inr ⟨request, vehicle, pickup, now, rfl, ran⟩
    | inr before => exact .inl ⟨c', before, rfl⟩
  | ticks => exact .inl (Registry.holds_tick.mp held)
  | closes same gone => exact .inl ⟨c', ((Registry.holds_unregister gone).mp held).1, same c'⟩
  | spares same => exact .inl ⟨c', held, same c'⟩

end Acts

namespace Action

/-- An action completes just what is due at its time, if it is the clock that ticks. -/
lemma complete_on : (a.on c).complete = true ↔ c.complete = true ∨ ∃ t, a = .tick t ∧ c.dueAt ≤ t := by
  cases a with
  | tick now => simp [on, Confirmation.complete_tick]
  | _ => simp [on]

/-- Nothing but the answer to a confirmation changes. -/
lemma resolve_on (a : Action) (c : Confirmation) : (a.on c).resolve true = c.resolve true := by
  cases a with
  | tick now =>
    show (c.tick now).resolve true = _
    unfold Confirmation.tick
    split <;> rfl
  | _ => rfl

lemma dueAt_on : (a.on c).dueAt = c.dueAt := by
  have same := congrArg Confirmation.dueAt (resolve_on a c)
  exact same

lemma createdAt_on : (a.on c).createdAt = c.createdAt := by
  have same := congrArg Confirmation.createdAt (resolve_on a c)
  exact same

end Action

/-! ## Sequences of actions -/

lemma after_snoc (delay : Time) (actions : List Action) (a : Action) :
    after delay (actions ++ [a]) = (after delay actions).act a := by
  unfold after
  rw [List.foldl_append]
  rfl

/-- A confirmation is what one of the actions has opened, up to its answer. It is complete just if it was
due at once, or the clock has ticked since at a time when it was due. -/
def Traced (delay : Time) (actions : List Action) (c : Confirmation) : Prop :=
  ∃ before request vehicle pickup now later first o,
    actions = before ++ .add request vehicle pickup now :: later ∧
    (add request vehicle pickup now).run (after delay before) = .ok first o ∧
    c.resolve true = first.resolve true ∧
    (c.complete = true ↔ c.dueAt ≤ c.createdAt ∨ ∃ t, .tick t ∈ later ∧ c.dueAt ≤ t)

/-- A confirmation that has just been opened. -/
lemma Traced.opened (h : (add request vehicle pickup now).run (after delay actions) = .ok c o) :
    Traced delay (actions ++ [.add request vehicle pickup now]) c := by
  refine ⟨actions, request, vehicle, pickup, now, [], c, o, rfl, h, rfl, ?_⟩
  obtain ⟨rfl, _, _⟩ := add_run_eq_ok h
  simp [Registry.newConfirmation]

lemma Traced.act (h : Traced delay actions c) (a : Action) : Traced delay (actions ++ [a]) (a.on c) := by
  obtain ⟨before, request, vehicle, pickup, now, later, first, o, rfl, opened, own, complete⟩ := h
  refine ⟨before, request, vehicle, pickup, now, later ++ [a], first, o, ?_, opened, ?_, ?_⟩
  · rw [List.append_assoc]
    rfl
  · rw [Action.resolve_on]
    exact own
  · rw [Action.complete_on, complete, Action.dueAt_on, Action.createdAt_on, or_assoc]
    simp only [List.mem_append, List.mem_singleton, or_and_right, exists_or, eq_comm]

/-- What any sequence of actions leaves. -/
structure Kept (delay : Time) (actions : List Action) : Prop where
  sound : (after delay actions).registry.Sound
  delay_eq : (after delay actions).registry.delay = delay
  traced : ∀ c, (after delay actions).registry.Holds c → Traced delay actions c

lemma Kept.act (h : Kept delay actions) (a : Action) : Kept delay (actions ++ [a]) := by
  have acted := acts h.sound a
  rw [← after_snoc] at acted
  refine ⟨acted.sound h.sound, acted.delay_eq.trans h.delay_eq, ?_⟩
  intro c held
  cases acted.holds_inv h.sound held with
  | inl before =>
    obtain ⟨c, there, rfl⟩ := before
    exact (h.traced c there).act a
  | inr new =>
    obtain ⟨request, vehicle, pickup, now, rfl, ran⟩ := new
    exact .opened ran

lemma kept (delay : Time) (actions : List Action) : Kept delay actions := by
  induction actions using List.reverseRecOn with
  | nil => exact ⟨.empty delay, rfl, fun _ held => (Registry.not_holds_empty held).elim⟩
  | append_singleton actions a ih => exact ih.act a

/-- A confirmation is due when the delay is over. -/
lemma Traced.due (h : Traced delay actions c) : c.dueAt = c.createdAt + delay := by
  obtain ⟨before, request, vehicle, pickup, now, later, first, o, _, opened, own, _⟩ := h
  obtain ⟨rfl, _, _⟩ := add_run_eq_ok opened
  have dueAt : c.dueAt = now + (after delay before).registry.delay := congrArg Confirmation.dueAt own
  have createdAt : c.createdAt = now := congrArg Confirmation.createdAt own
  rw [dueAt, createdAt, (kept delay before).delay_eq]

/-- After any sequence of actions, whatever their arguments and times, the indexes of a registry are the
inverse of its confirmations. Each confirmation that is registered has an identity of its own that has been
given out, is due when the delay is over, accepted just if it is complete, and goes back to one of the
actions. An opening that fails and a removal of what is not registered change nothing and tell nothing. -/
theorem registration (delay : Time) (actions : List Action) :
    let o := after delay actions
    (∀ q id, o.registry.byRequest[q]? = some id ↔
      ∃ c : Confirmation, o.registry.confirmations[id]? = some c ∧ c.request = q) ∧
    (∀ v id, o.registry.byVehicle[v]? = some id ↔
      ∃ c : Confirmation, o.registry.confirmations[id]? = some c ∧ c.vehicle = v) ∧
    (o.registry.toList.map Confirmation.id).Nodup ∧
    (∀ id c, o.registry.confirmations[id]? = some c → c.id = id ∧ id.val < o.registry.nextId ∧
      c.dueAt.toNat = min (c.createdAt.toNat + delay.toNat) Time.never.toNat ∧ c.accepted = c.complete ∧
      Traced delay actions c) ∧
    (∀ request vehicle pickup now e o', (add request vehicle pickup now).run o = .error e o' → o' = o) ∧
    (∀ id now, o.registry.confirmations[id]? = none →
      (remove id now : EStateM DispatchError _ _).run o = .ok none o) := by
  intro o
  obtain ⟨sound, delay_eq, traced⟩ := kept delay actions
  refine ⟨sound.find_iff sound.byRequest, sound.find_iff sound.byVehicle, ?_, ?_, ?_, ?_⟩
  · rw [sound.ids_eq]
    exact Std.ExtTreeMap.nodup_keys
  · intro id c found
    obtain rfl := sound.id_eq found
    have origin := traced c found
    refine ⟨rfl, sound.id_lt found, ?_, sound.accepted found, origin⟩
    rw [origin.due, Time.toNat_add]
  · intro request vehicle pickup now e o' failed
    exact add_run_eq_error failed
  · intro id now absent
    exact remove_run_of_absent absent

end Office

end RideDispatch

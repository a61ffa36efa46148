import RideDispatch.Proofs.Agreement
import RideDispatch.Proofs.Tidy

/-!
# Stores that agree

What a dispatcher knows of a request is spread over three stores: the queue holds the request, the index
holds where it is to be picked up, and the registry holds its confirmation. Each operation writes to them one
by one. A state is `Indexed` if the index lists just the queued requests, each at its pickup. Every step of
a cycle keeps it so, and so do submissions and withdrawals, whatever the fleet and the router answer. With
confirmations that are for queued requests (`DispatchState.Agrees`) this is the main statement,
`Dispatcher.stores_agree`.
-/

namespace RideDispatch

/-- How the index lists a request: in the cell and at the place of its pickup. -/
def Request.member (resolution : Resolution) (r : Request) : ZoneMember :=
  ⟨Globe.cellOf resolution r.origin.coord, r.origin⟩

/-- The index lists just the queued requests, and its buckets list just what it lists. -/
structure DispatchState.Indexed (s : DispatchState) (resolution : Resolution) : Prop where
  resolution_eq : s.zones.requests.resolution = resolution
  members : ∀ id, s.zones.requests.members[id]? = (s.queue.get? id).map (Request.member resolution)
  tidy : s.zones.requests.Tidy

namespace DispatchState.Indexed

variable {s : DispatchState} {resolution : Resolution} {registry : Registry}

lemma empty (delay : Time) : (DispatchState.empty delay resolution).Indexed resolution where
  resolution_eq := rfl
  members id := by
    simp [DispatchState.empty, Zones.empty, ZoneMap.empty, RequestQueue.empty, RequestQueue.get?]
  tidy := .empty

/-- A request may come into the queue and into the index. -/
lemma insert (h : s.Indexed resolution) (r : Request) :
    DispatchState.Indexed ⟨s.queue.insert r, registry, s.zones.addRequest r.id r.origin⟩ resolution where
  resolution_eq := h.resolution_eq
  members id := by
    show (s.zones.requests.insert r.id r.origin).members[id]? = _
    rw [ZoneMap.members_insert, RequestQueue.get?_insert, h.resolution_eq, h.members]
    split <;> rfl
  tidy := h.tidy.insert r.id r.origin

/-- A request may leave the queue and the index. -/
lemma erase (h : s.Indexed resolution) (id : RequestId) :
    DispatchState.Indexed ⟨s.queue.erase id, registry, s.zones.eraseRequest id⟩ resolution where
  resolution_eq := ZoneMap.resolution_erase.trans h.resolution_eq
  members id' := by
    show (s.zones.requests.erase id).members[id']? = _
    rw [ZoneMap.members_erase, RequestQueue.get?_erase, h.members]
    split <;> rfl
  tidy := h.tidy.erase id

/-- Attempts may be counted. -/
lemma countAttempts (h : s.Indexed resolution) (ids : List RequestId) :
    { s with queue := ids.foldl RequestQueue.countAttempt s.queue }.Indexed resolution where
  resolution_eq := h.resolution_eq
  members id := by
    show s.zones.requests.members[id]? = _
    rw [h.members, RequestQueue.get?_countAttempts, Option.map_map]
    rfl
  tidy := h.tidy

/-- The vehicles of the index may change. -/
lemma of_requests {zones : Zones} (h : s.Indexed resolution) (same : zones.requests = s.zones.requests) :
    { s with zones := zones }.Indexed resolution where
  resolution_eq := (congrArg ZoneMap.resolution same).trans h.resolution_eq
  members id := by
    rw [same]
    exact h.members id
  tidy := same ▸ h.tidy

lemma keys_eq (h : s.Indexed resolution) : s.zones.requests.keys = s.queue.ids := by
  apply Table.keys_congr
  intro id
  rw [h.members, Option.isSome_map]
  rfl

lemma place?_eq (h : s.Indexed resolution) (id : RequestId) :
    s.zones.requests.place? id = (s.queue.get? id).map Request.origin := by
  unfold ZoneMap.place?
  rw [h.members, Option.map_map]
  rfl

lemma mem_keysIn (h : s.Indexed resolution) {id : RequestId} {cell : Globe.Cell} :
    id ∈ ZoneMap.keysIn s.zones.requests.buckets cell ↔
      ∃ r, s.queue.get? id = some r ∧ Globe.cellOf resolution r.origin.coord = cell := by
  rw [h.tidy.mem_iff, ZoneMap.cell?, h.members, Option.map_map, Option.map_eq_some_iff]
  rfl

end DispatchState.Indexed

/-- Every step of a cycle leaves the index in line with the queue. -/
lemma Session.Step.indexed {φ : Type} [Fleet φ] {s s' : Session φ} {now : Time} {resolution : Resolution}
    (step : Step now s s') (h : s.state.Indexed resolution) : s'.state.Indexed resolution := by
  cases step with
  | sync => exact h.of_requests (s.state.zones.requests_syncVehicles s.fleet now)
  | attempts ids => exact h.countAttempts ids
  | tally => exact h
  | note => exact h
  | opens => exact ⟨h.resolution_eq, h.members, h.tidy⟩
  | @commits c => exact (h.erase c.request).of_requests rfl
  | drops => exact ⟨h.resolution_eq, h.members, h.tidy⟩

lemma Session.Steps.indexed {φ : Type} [Fleet φ] {s s' : Session φ} {now : Time} {resolution : Resolution}
    (steps : Steps now s s') (h : s.state.Indexed resolution) : s'.state.Indexed resolution := by
  induction steps with
  | refl => exact h
  | tail _ step ih => exact step.indexed ih

namespace Dispatcher

variable {φ : Type} [Fleet φ] {d : Dispatcher} {resolution : Resolution} {calls : List (Call φ)}

/-- Every call leaves the index in line with the queue. -/
lemma answer_indexed (call : Call φ) (sound : d.state.Sound) (h : d.state.Indexed resolution) :
    (d.answer call).1.state.Indexed resolution := by
  cases call with
  | submit request => exact h.insert request
  | withdraw id now =>
    simp only [answer, withdraw_eq sound]
    cases d.state.queue.get? id with
    | none => exact h
    | some request => exact h.erase id
  | cycle ctx fleet =>
    have start : (d.begin ctx.now fleet).state.Indexed resolution :=
      ⟨h.resolution_eq, h.members, h.tidy⟩
    exact Session.Steps.indexed (pass_steps sound) start

lemma serve_indexed (sound : d.state.Sound) (h : d.state.Indexed resolution) :
    (d.serve calls).1.state.Indexed resolution := by
  induction calls generalizing d with
  | nil => exact h
  | cons call rest ih => exact ih (answer_sound call sound) (answer_indexed call sound h)

/-- Where every confirmation is for a queued request, there is work just if a request is queued. -/
lemma hasPendingWork_eq {agree : Confirmation → Request → Prop} (sound : d.state.Sound)
    (h : d.state.Agrees agree) : d.hasPendingWork = !d.state.queue.isEmpty := by
  unfold hasPendingWork
  cases none_ : d.state.queue.isEmpty with
  | false => rfl
  | true =>
    have empty : d.state.queue.requests = ∅ := Std.ExtTreeMap.isEmpty_iff.mp none_
    have unasked : d.state.registry.confirmations = ∅ := by
      apply Std.ExtTreeMap.ext_getElem?
      intro id
      cases found : d.state.registry.confirmations[id]? with
      | none => rfl
      | some c =>
        -- its request would be queued
        have held := (sound.registry.get?_eq_some.mp found).1
        have member := h.mem_queue held
        unfold RequestQueue.contains at member
        rw [empty] at member
        cases member
    rw [unasked]
    rfl

/-- In whatever order requests have been submitted, also again and again, and given up and cycles have been
run, with whatever settings and whatever the fleets and the routers have answered: the index lists just the
queued requests, each at its pickup, and its buckets gather just them, each in its cell; every confirmation
is for a queued request; and there is work to do just if a request is queued. -/
theorem stores_agree (settings : Settings) (resolution : Resolution) (calls : List (Call φ)) :
    let d := ((fresh settings resolution).serve calls).1
    d.state.zones.requests.keys = d.state.queue.ids ∧
    (∀ id, d.state.zones.requests.place? id = (d.state.queue.get? id).map Request.origin) ∧
    (∀ id cell, id ∈ ZoneMap.keysIn d.state.zones.requests.buckets cell ↔
      ∃ r, d.state.queue.get? id = some r ∧ Globe.cellOf resolution r.origin.coord = cell) ∧
    (∀ c ∈ d.state.registry.toList, d.state.queue.contains c.request = true) ∧
    d.hasPendingWork = !d.state.queue.isEmpty := by
  intro d
  have sound : d.state.Sound := serve_sound (.empty _ _)
  have indexed : d.state.Indexed resolution := serve_indexed (.empty _ _) (.empty _)
  have queued : d.state.Agrees fun _ _ => True := serve_queued settings resolution calls
  refine ⟨indexed.keys_eq, indexed.place?_eq, fun _ _ => indexed.mem_keysIn, ?_, ?_⟩
  · intro c member
    exact queued.mem_queue (sound.registry.mem_toList.mp member)
  · exact hasPendingWork_eq sound queued

end Dispatcher

end RideDispatch

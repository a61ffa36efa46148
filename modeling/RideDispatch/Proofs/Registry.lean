import RideDispatch.Confirmation
import RideDispatch.Proofs.Table

/-!
# Sound registries

A registry keeps its confirmations in one table and finds them through two others. It is `Sound` if
the two indexes say exactly what the confirmations say, the identities are those that have been given
out, and a confirmation that is complete is an accepted one.

`Sound.register`, `Sound.tick` and `Sound.unregister` say that every operation keeps a registry sound.
What an operation does to the confirmations that are held is stated once for each (`holds_register`,
`holds_tick`, `holds_unregister`); what it does to the two ways of finding one follows. The request
and the vehicle of a confirmation are two keys of the same kind, so that an index is one notion,
`Indexes`, with the key as a parameter.
-/

namespace RideDispatch.Confirmation

variable {c : Confirmation} {now : Time}

@[simp] lemma id_tick : (c.tick now).id = c.id := by
  unfold tick
  split <;> rfl

@[simp] lemma request_tick : (c.tick now).request = c.request := by
  unfold tick
  split <;> rfl

@[simp] lemma passenger_tick : (c.tick now).passenger = c.passenger := by
  unfold tick
  split <;> rfl

@[simp] lemma vehicle_tick : (c.tick now).vehicle = c.vehicle := by
  unfold tick
  split <;> rfl

@[simp] lemma pickup_tick : (c.tick now).pickup = c.pickup := by
  unfold tick
  split <;> rfl

@[simp] lemma createdAt_tick : (c.tick now).createdAt = c.createdAt := by
  unfold tick
  split <;> rfl

@[simp] lemma dueAt_tick : (c.tick now).dueAt = c.dueAt := by
  unfold tick
  split <;> rfl

@[simp] lemma createdEvent_tick : (c.tick now).createdEvent = c.createdEvent := by
  unfold tick
  split <;> rfl

lemma tick_of_due (open_ : c.complete = false) (due : c.dueAt ≤ now) : c.tick now = c.resolve true := by
  simp [tick, isDue, open_, due]

lemma tick_of_early (early : ¬ c.dueAt ≤ now) : c.tick now = c := by
  simp [tick, isDue, early]

/-- The clock completes what is due, and nothing becomes open again. -/
lemma complete_tick : (c.tick now).complete = true ↔ c.complete = true ∨ c.dueAt ≤ now := by
  by_cases due : c.dueAt ≤ now
  · cases complete : c.complete <;> simp [tick, isDue, complete, due, resolve]
  · simp [tick_of_early due, due]

lemma accepted_tick (h : c.accepted = c.complete) :
    (c.tick now).accepted = (c.tick now).complete := by
  unfold tick
  split
  · rfl
  · exact h

end RideDispatch.Confirmation

namespace RideDispatch.Registry

variable {r r' : Registry} {c c' : Confirmation} {e : ConfirmationEvent} {now : Time}
variable {request : Request} {vehicle : VehicleId} {pickup : Route}

/-- The confirmation is registered. -/
def Holds (r : Registry) (c : Confirmation) : Prop := r.confirmations[c.id]? = some c

/-- No two confirmations that are held have the same identity. -/
lemma Holds.inj (held : r.Holds c) (held' : r.Holds c') (same : c.id = c'.id) : c = c' := by
  unfold Holds at held held'
  rw [same, held'] at held
  exact (Option.some.inj held).symm

section Indexes

variable {κ : Type} [Ord κ] [Std.TransOrd κ]

/-- A table finds the confirmations of a registry by a key of theirs. -/
def Indexes (r : Registry) (index : Std.ExtTreeMap κ ConfirmationId) (key : Confirmation → κ) :
    Prop :=
  ∀ k id, index[k]? = some id ↔ ∃ c, r.Holds c ∧ c.id = id ∧ key c = k

variable {index : Std.ExtTreeMap κ ConfirmationId} {key : Confirmation → κ}

/-- Two confirmations with the same key are one. -/
lemma Indexes.inj (h : r.Indexes index key) (held : r.Holds c) (held' : r.Holds c')
    (e : key c = key c') : c = c' := by
  have found := (h _ _).mpr ⟨c, held, rfl, e⟩
  have found' := (h _ _).mpr ⟨c', held', rfl, rfl⟩
  rw [found] at found'
  exact held.inj held' (Option.some.inj found')

lemma Indexes.find (h : r.Indexes index key) {k} :
    (index[k]?.bind fun id => r.confirmations[id]?) = some c ↔ r.Holds c ∧ key c = k := by
  rw [Option.bind_eq_some_iff]
  constructor
  · rintro ⟨id, found, entry⟩
    obtain ⟨c₀, held, rfl, rfl⟩ := (h _ _).mp found
    have e : c₀ = c := Option.some.inj (held.symm.trans entry)
    subst e
    exact ⟨held, rfl⟩
  · rintro ⟨held, rfl⟩
    exact ⟨c.id, (h _ _).mpr ⟨c, held, rfl, rfl⟩, held⟩

lemma Indexes.contains_iff (h : r.Indexes index key) {k} :
    index.contains k = true ↔ ∃ c, r.Holds c ∧ key c = k := by
  rw [Table.contains_eq_isSome, Option.isSome_iff_exists]
  constructor
  · rintro ⟨id, found⟩
    obtain ⟨c, held, _, e⟩ := (h _ _).mp found
    exact ⟨c, held, e⟩
  · rintro ⟨c, held, e⟩
    exact ⟨c.id, (h _ _).mpr ⟨c, held, rfl, e⟩⟩

end Indexes

/-- The indexes of a registry are those of its confirmations. -/
structure Sound (r : Registry) : Prop where
  id_eq : ∀ {id} {c : Confirmation}, r.confirmations[id]? = some c → c.id = id
  id_lt : ∀ {c : Confirmation}, r.Holds c → c.id.val < r.nextId
  accepted : ∀ {c : Confirmation}, r.Holds c → c.accepted = c.complete
  byRequest : r.Indexes r.byRequest Confirmation.request
  byVehicle : r.Indexes r.byVehicle Confirmation.vehicle

/-- Confirmations are registered under their identities, and the indexes are theirs. -/
structure Consistent (r : Registry) : Prop where
  id_eq : ∀ {id} {c : Confirmation}, r.confirmations[id]? = some c → c.id = id
  byRequest : r.Indexes r.byRequest Confirmation.request
  byVehicle : r.Indexes r.byVehicle Confirmation.vehicle

lemma Sound.consistent (h : r.Sound) : r.Consistent := ⟨h.id_eq, h.byRequest, h.byVehicle⟩

/-- A confirmation that can be registered: it has the next identity, and neither its request nor its
vehicle has one. -/
structure Admits (r : Registry) (c : Confirmation) : Prop where
  id : c.id = ⟨r.nextId⟩
  accepted : c.accepted = c.complete
  request : r.isWaitingRequest c.request = false
  vehicle : r.isWaitingVehicle c.vehicle = false

lemma add_eq_ok (h : r.add request vehicle pickup now = .ok (c, e, r')) :
    c = r.newConfirmation request vehicle pickup now ∧ r.Admits c ∧ e = c.createdEvent ∧
      r' = r.register c := by
  unfold add at h
  split at h
  · cases h
  · split at h
    · cases h
    · rename_i freeRequest freeVehicle
      cases h
      rw [Bool.not_eq_true] at freeRequest freeVehicle
      exact ⟨rfl, ⟨rfl, rfl, freeRequest, freeVehicle⟩, rfl, rfl⟩

/-- Where both sides are free a confirmation is opened. -/
lemma add_of_free (pickup : Route) (now : Time) (freeRequest : r.isWaitingRequest request.id = false)
    (freeVehicle : r.isWaitingVehicle vehicle = false) :
    ∃ c, r.add request vehicle pickup now = .ok (c, c.createdEvent, r.register c) := by
  refine ⟨r.newConfirmation request vehicle pickup now, ?_⟩
  simp [add, freeRequest, freeVehicle]

namespace Sound

lemma get?_eq_some (h : r.Sound) {id} : r.get? id = some c ↔ r.Holds c ∧ c.id = id := by
  constructor
  · intro found
    have e := h.id_eq found
    subst e
    exact ⟨found, rfl⟩
  · rintro ⟨held, rfl⟩
    exact held

lemma mem_toList (h : r.Sound) : c ∈ r.toList ↔ r.Holds c := by
  unfold toList
  rw [Table.mem_values]
  constructor
  · rintro ⟨id, found⟩
    exact (h.get?_eq_some.mp found).1
  · intro held
    exact ⟨c.id, held⟩

lemma mem_completedIds (h : r.Sound) {id} :
    id ∈ r.completedIds ↔ ∃ c, r.Holds c ∧ c.complete = true ∧ c.id = id := by
  unfold completedIds
  simp only [List.mem_map, List.mem_filter, h.mem_toList, and_assoc]

lemma ofRequest?_eq_some (h : r.Sound) {q} :
    r.ofRequest? q = some c ↔ r.Holds c ∧ c.request = q :=
  h.byRequest.find

lemma isWaitingRequest_iff (h : r.Sound) {q} :
    r.isWaitingRequest q = true ↔ ∃ c, r.Holds c ∧ c.request = q :=
  h.byRequest.contains_iff

lemma isWaitingVehicle_iff (h : r.Sound) {v} :
    r.isWaitingVehicle v = true ↔ ∃ c, r.Holds c ∧ c.vehicle = v :=
  h.byVehicle.contains_iff

end Sound

/-! ## The operations -/

lemma not_holds_empty {delay : Time} : ¬ (empty delay).Holds c := by
  intro held
  exact absurd held (by simp [Holds, empty])

lemma holds_register (h : r.Sound) (admits : r.Admits c) :
    (r.register c).Holds c' ↔ c' = c ∨ r.Holds c' := by
  unfold Holds
  simp only [register, Table.getElem?_insert]
  split
  · rename_i e
    constructor
    · intro found
      exact .inl (Option.some.inj found).symm
    · rintro (rfl | held)
      · rfl
      · -- an older confirmation has a smaller identity
        have below := h.id_lt held
        rw [← e, admits.id] at below
        exact absurd below (Nat.lt_irrefl _)
  · rename_i ne
    constructor
    · exact .inr
    · rintro (rfl | held)
      · exact absurd rfl ne
      · exact held

lemma holds_unregister (held : r.Holds c) : (r.unregister c).Holds c' ↔ r.Holds c' ∧ c' ≠ c := by
  unfold Holds at *
  simp only [unregister, Table.getElem?_erase]
  split
  · rename_i e
    constructor
    · intro found
      cases found
    · rintro ⟨held', ne⟩
      rw [← e, held] at held'
      exact absurd (Option.some.inj held').symm ne
  · rename_i ne
    constructor
    · intro held'
      exact ⟨held', fun e => ne (congrArg Confirmation.id e.symm)⟩
    · rintro ⟨held', _⟩
      exact held'

lemma isWaitingRequest_register {q} :
    (r.register c).isWaitingRequest q = (decide (c.request = q) || r.isWaitingRequest q) :=
  Table.contains_insert

lemma isWaitingRequest_unregister {q} :
    (r.unregister c).isWaitingRequest q = (!decide (c.request = q) && r.isWaitingRequest q) :=
  Table.contains_erase

lemma isWaitingVehicle_register {v} :
    (r.register c).isWaitingVehicle v = (decide (c.vehicle = v) || r.isWaitingVehicle v) :=
  Table.contains_insert

lemma isWaitingVehicle_unregister {v} :
    (r.unregister c).isWaitingVehicle v = (!decide (c.vehicle = v) && r.isWaitingVehicle v) :=
  Table.contains_erase

lemma holds_tick : (r.tick now).2.Holds c' ↔ ∃ c, r.Holds c ∧ c.tick now = c' := by
  unfold Holds
  simp only [tick, Std.ExtTreeMap.getElem?_map, Option.map_eq_some_iff]
  constructor
  · rintro ⟨c, found, rfl⟩
    rw [Confirmation.id_tick] at found
    exact ⟨c, found, rfl⟩
  · rintro ⟨c, found, rfl⟩
    rw [Confirmation.id_tick]
    exact ⟨c, found, rfl⟩

section Indexes

variable {κ : Type} [Ord κ] [Std.TransOrd κ]
variable {index : Std.ExtTreeMap κ ConfirmationId} {key : Confirmation → κ}

lemma Indexes.tick (h : r.Indexes index key) (same : ∀ c, key (c.tick now) = key c) :
    (r.tick now).2.Indexes index key := by
  intro k id
  rw [h]
  simp only [holds_tick]
  constructor
  · rintro ⟨c, held, rfl, rfl⟩
    exact ⟨c.tick now, ⟨c, held, rfl⟩, Confirmation.id_tick, same c⟩
  · rintro ⟨_, ⟨c, held, rfl⟩, rfl, rfl⟩
    exact ⟨c, held, Confirmation.id_tick.symm, (same c).symm⟩

variable [Std.LawfulEqOrd κ] [DecidableEq κ]

lemma Indexes.register (h : r.Indexes index key) (sound : r.Sound) (admits : r.Admits c)
    (free : index.contains (key c) = false) :
    (r.register c).Indexes (index.insert (key c) c.id) key := by
  intro k id
  simp only [Table.getElem?_insert, holds_register sound admits]
  split
  · rename_i e
    subst e
    constructor
    · intro found
      exact ⟨c, .inl rfl, Option.some.inj found, rfl⟩
    · rintro ⟨c', rfl | held, rfl, e⟩
      · rfl
      · -- no older confirmation has the key
        have found := h.contains_iff.mpr ⟨c', held, e⟩
        rw [free] at found
        cases found
  · rename_i ne
    rw [h]
    constructor
    · rintro ⟨c', held, e⟩
      exact ⟨c', .inr held, e⟩
    · rintro ⟨c', rfl | held, e⟩
      · exact absurd e.2 ne
      · exact ⟨c', held, e⟩

lemma Indexes.unregister (h : r.Indexes index key) (held : r.Holds c) :
    (r.unregister c).Indexes (index.erase (key c)) key := by
  intro k id
  simp only [Table.getElem?_erase, holds_unregister held]
  split
  · rename_i e
    constructor
    · intro found
      cases found
    · rintro ⟨c', ⟨held', ne⟩, _, e'⟩
      exact absurd (h.inj held' held (e'.trans e.symm)) ne
  · rename_i ne
    rw [h]
    constructor
    · rintro ⟨c', held', e⟩
      refine ⟨c', ⟨held', ?_⟩, e⟩
      rintro rfl
      exact ne e.2
    · rintro ⟨c', ⟨held', _⟩, e⟩
      exact ⟨c', held', e⟩

end Indexes

/-- Without one of its confirmations a registry stays consistent. -/
lemma Consistent.unregister (h : r.Consistent) (held : r.Holds c) : (r.unregister c).Consistent where
  id_eq := by
    intro id c' found
    simp only [Registry.unregister, Table.getElem?_erase] at found
    split at found
    · cases found
    · exact h.id_eq found
  byRequest := h.byRequest.unregister held
  byVehicle := h.byVehicle.unregister held

namespace Sound

lemma empty (delay : Time) : (Registry.empty delay).Sound where
  id_eq found := by simp [Registry.empty] at found
  id_lt held := (not_holds_empty held).elim
  accepted held := (not_holds_empty held).elim
  byRequest k id := by
    constructor
    · intro found
      simp [Registry.empty] at found
    · rintro ⟨c, held, _⟩
      exact (not_holds_empty held).elim
  byVehicle k id := by
    constructor
    · intro found
      simp [Registry.empty] at found
    · rintro ⟨c, held, _⟩
      exact (not_holds_empty held).elim

lemma register (h : r.Sound) (admits : r.Admits c) : (r.register c).Sound where
  id_eq := by
    intro id c' found
    simp only [Registry.register, Table.getElem?_insert] at found
    split at found
    · rename_i e
      rw [← Option.some.inj found, e]
    · exact h.id_eq found
  id_lt := by
    intro c' held
    show c'.id.val < r.nextId + 1
    rcases (holds_register h admits).mp held with rfl | held
    · rw [admits.id]
      exact Nat.lt_succ_self _
    · exact Nat.lt_succ_of_lt (h.id_lt held)
  accepted := by
    intro c' held
    rcases (holds_register h admits).mp held with rfl | held
    · exact admits.accepted
    · exact h.accepted held
  byRequest := h.byRequest.register h admits admits.request
  byVehicle := h.byVehicle.register h admits admits.vehicle

lemma unregister (h : r.Sound) (held : r.Holds c) : (r.unregister c).Sound where
  id_eq := (h.consistent.unregister held).id_eq
  id_lt held' := h.id_lt ((holds_unregister held).mp held').1
  accepted held' := h.accepted ((holds_unregister held).mp held').1
  byRequest := h.byRequest.unregister held
  byVehicle := h.byVehicle.unregister held

lemma tick (h : r.Sound) : (r.tick now).2.Sound where
  id_eq := by
    intro id c' found
    simp only [Registry.tick, Std.ExtTreeMap.getElem?_map, Option.map_eq_some_iff] at found
    obtain ⟨c, found, rfl⟩ := found
    rw [Confirmation.id_tick]
    exact h.id_eq found
  id_lt := by
    intro c' held
    obtain ⟨c, before, rfl⟩ := holds_tick.mp held
    rw [Confirmation.id_tick]
    exact h.id_lt before
  accepted := by
    intro c' held
    obtain ⟨c, before, rfl⟩ := holds_tick.mp held
    exact Confirmation.accepted_tick (h.accepted before)
  byRequest := h.byRequest.tick fun _ => Confirmation.request_tick
  byVehicle := h.byVehicle.tick fun _ => Confirmation.vehicle_tick

/-- Giving up a request closes its confirmation as not accepted. -/
lemma withdraw (h : r.Sound) (q : RequestId) :
    r.withdraw q now = (r.ofRequest? q).map fun c =>
      (c.resolve false, (c.resolve false).completedEvent now, r.unregister c) := by
  unfold Registry.withdraw
  cases found : r.byRequest[q]? with
  | none => simp [ofRequest?, found]
  | some id =>
    obtain ⟨c, held, rfl, e⟩ := (h.byRequest _ _).mp found
    have own : r.ofRequest? q = some c := h.ofRequest?_eq_some.mpr ⟨held, e⟩
    have entry : (r.confirmations.modify c.id fun c => c.resolve false)[c.id]? =
        some (c.resolve false) := by
      rw [Table.getElem?_modify, if_pos rfl, held]
      rfl
    have rest : (r.confirmations.modify c.id fun c => c.resolve false).erase c.id =
        r.confirmations.erase c.id := by
      apply Std.ExtTreeMap.ext_getElem?
      intro id
      rw [Table.getElem?_erase, Table.getElem?_erase, Table.getElem?_modify]
      split <;> rfl
    rw [own]
    simp only [Registry.remove, entry, Option.map_some]
    unfold Registry.unregister
    rw [show (c.resolve false).id = c.id from rfl, rest]
    rfl

end Sound

/-- The registry without the confirmation of a request. -/
def release (r : Registry) (q : RequestId) : Registry :=
  match r.ofRequest? q with
  | some c => r.unregister c
  | none => r

/-- What is told when the confirmation of a request is not accepted. -/
def farewell (r : Registry) (q : RequestId) (now : Time) : List ConfirmationEvent :=
  ((r.ofRequest? q).map fun c => (c.resolve false).completedEvent now).toList

lemma delay_release (q : RequestId) : (r.release q).delay = r.delay := by
  unfold release
  split <;> rfl

lemma Sound.release (h : r.Sound) (q : RequestId) : (r.release q).Sound := by
  unfold Registry.release
  split
  · rename_i c own
    exact h.unregister (h.ofRequest?_eq_some.mp own).1
  · exact h

lemma holds_release (h : r.Sound) {q : RequestId} :
    (r.release q).Holds c ↔ r.Holds c ∧ c.request ≠ q := by
  unfold Registry.release
  split
  · rename_i c' own
    obtain ⟨held, rfl⟩ := h.ofRequest?_eq_some.mp own
    rw [holds_unregister held]
    constructor
    · rintro ⟨held', ne⟩
      exact ⟨held', fun e => ne (h.byRequest.inj held' held e)⟩
    · rintro ⟨held', ne⟩
      exact ⟨held', fun e => ne (congrArg Confirmation.request e)⟩
  · rename_i unbound
    constructor
    · intro held
      refine ⟨held, fun e => ?_⟩
      rw [h.ofRequest?_eq_some.mpr ⟨held, e⟩] at unbound
      cases unbound
    · exact And.left

end RideDispatch.Registry

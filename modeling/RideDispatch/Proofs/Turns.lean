import RideDispatch.Proofs.Moves

/-!
# The turns of requests and vehicles

In a greedy pass in which requests choose, one request after the other has its turn, and a count tells how
many idle vehicles are left. `Greedy.Turn` says what a turn can come to, and `Greedy.turn_spec` that there
is nothing else. A turn takes one from the count whenever it asks a driver, even if the fleet then refuses
the ride and the vehicle stays free. So the count and the rides refused in the pass together are the free
vehicles of the index (`Greedy.Turn.tallied`), and a request is counted as unmatched in just two cases: no
near vehicle can reach it, or all the vehicles that are left have been refused a ride
(`Dispatcher.unmatched_turns`). Where vehicles choose there is no count. A pass consists of their choices, one
after the other (`Greedy.Choice`), as long as anything is queued.
-/

namespace RideDispatch

/-! ## Free vehicles -/

namespace DispatchState

/-- The indexed vehicles without a confirmation. -/
def unbound (s : DispatchState) : List VehicleId :=
  s.zones.vehicles.keys.filter fun v => !s.registry.isWaitingVehicle v

variable {s s' : DispatchState} {v : VehicleId}

lemma mem_unbound :
    v ∈ s.unbound ↔ s.zones.vehicles.contains v = true ∧ s.registry.isWaitingVehicle v = false := by
  unfold unbound
  rw [List.mem_filter, ZoneMap.mem_keys, Bool.not_eq_true']

lemma nodup_unbound (s : DispatchState) : s.unbound.Nodup := ZoneMap.nodup_keys.filter _

lemma length_unbound_of_same (same : ∀ w, w ∈ s'.unbound ↔ w ∈ s.unbound) :
    s'.unbound.length = s.unbound.length :=
  ((List.perm_ext_iff_of_nodup s'.nodup_unbound s.nodup_unbound).mpr same).length_eq

lemma length_unbound_of_taken (free : v ∈ s.unbound)
    (others : ∀ w, w ∈ s'.unbound ↔ v ≠ w ∧ w ∈ s.unbound) :
    s'.unbound.length + 1 = s.unbound.length := by
  -- the free vehicles are the one that is taken and those that are left
  have distinct : (v :: s'.unbound).Nodup := by
    apply List.nodup_cons.mpr
    exact ⟨fun member => ((others v).mp member).1 rfl, s'.nodup_unbound⟩
  have perm : (v :: s'.unbound).Perm s.unbound := by
    apply (List.perm_ext_iff_of_nodup distinct s.nodup_unbound).mpr
    intro w
    rw [List.mem_cons, others]
    by_cases same : w = v
    · subst same
      exact iff_of_true (.inl rfl) free
    · constructor
      · rintro (rfl | ⟨_, member⟩)
        · exact free
        · exact member
      · intro member
        exact .inr ⟨Ne.symm same, member⟩
  exact perm.length_eq

end DispatchState

/-- A snapshot counts the idle vehicles without a confirmation. -/
lemma Snapshot.idleVehicles_take {s : DispatchState} {fleet : ScheduledFleet} {now : Time}
    (requests : List Request) (settings : Settings)
    (inLine : ∀ v, s.zones.vehicles.contains v = fleet.isIdle v now) :
    (take requests fleet s.registry settings now).idleVehicles = s.unbound.length := by
  show ((freeVehicles fleet s.registry now).filter (·.2)).length = _
  unfold freeVehicles
  rw [List.filter_map, List.length_map]
  apply List.Perm.length_eq
  apply (List.perm_ext_iff_of_nodup ?_ s.nodup_unbound).mpr
  · intro v
    rw [DispatchState.mem_unbound, inLine, List.mem_filter, List.mem_filter,
      ScheduledFleet.mem_vehicleIds, Bool.and_eq_true, Bool.not_eq_true', Bool.not_eq_true']
    show (_ ∧ _ ∧ fleet.isOutOfService v now = false) ∧ fleet.isIdle v now = true ↔ _
    constructor
    · rintro ⟨⟨_, free, _⟩, idle⟩
      exact ⟨idle, free⟩
    · rintro ⟨idle, free⟩
      exact ⟨⟨ScheduledFleet.isSome_of_isIdle idle, free, ScheduledFleet.serves_of_isIdle idle⟩, idle⟩
  · exact (fleet.nodup_vehicleIds.filter _).filter _

/-! ## Asking a driver -/

namespace Session

section Parts

variable {φ : Type} {s : Session φ} {c : Confirmation} {v : VehicleId}

lemma mem_unbound_asking : v ∈ (s.asking c).state.unbound ↔ c.vehicle ≠ v ∧ v ∈ s.state.unbound := by
  rw [DispatchState.mem_unbound, DispatchState.mem_unbound]
  show _ ∧ (s.state.registry.register c).isWaitingVehicle v = false ↔ _
  rw [Registry.isWaitingVehicle_register, Bool.or_eq_false_iff, decide_eq_false_iff_not]
  exact and_left_comm

lemma mem_unbound_close (now : Time) (admits : s.state.registry.Admits c) :
    v ∈ ((s.asking c).close now c).state.unbound ↔ v ∈ s.state.unbound := by
  have same : ((s.state.registry.register c).unregister c).isWaitingVehicle v =
      s.state.registry.isWaitingVehicle v := by
    rw [Registry.isWaitingVehicle_unregister, Registry.isWaitingVehicle_register]
    by_cases own : c.vehicle = v
    · rw [← own, admits.vehicle]
      simp
    · simp [own]
  rw [DispatchState.mem_unbound, DispatchState.mem_unbound, ← same]
  rfl

lemma mem_unbound_commitRide {fleet : φ} :
    v ∈ (s.commitRide c fleet).state.unbound ↔ c.vehicle ≠ v ∧ v ∈ s.state.unbound := by
  rw [DispatchState.mem_unbound, DispatchState.mem_unbound]
  show (s.state.zones.vehicles.erase c.vehicle).contains v = true ∧ _ ↔ _
  rw [ZoneMap.contains_erase, Bool.and_eq_true, Bool.not_eq_true', decide_eq_false_iff_not, and_assoc]
  rfl

end Parts

variable {φ : Type} [Fleet φ] {s next : Session φ} {now : Time} {c : Confirmation} {request : Request}
variable {p : Pairing} {placement : Placement}

lemma reason_ofCommitError (e : CommitError) : (Refusal.ofCommitError e).reason = .commitFailed := by
  cases e <;> rfl

/-- A confirmation that nothing else speaks against can be refused by the fleet only. -/
lemma reason_of_outcome {refusal : Refusal} (accepted : c.accepted = true)
    (serves : Fleet.isOutOfService s.fleet c.vehicle now = false)
    (queued : s.state.queue.get? c.request = some request) (inTime : request.isExpired now = false)
    (h : s.outcome now c = .error refusal) : refusal.reason = .commitFailed := by
  unfold outcome at h
  simp only [accepted, serves, queued, inTime] at h
  cases committed : Fleet.commit s.fleet c.vehicle request (c.pickup.retimed now) now with
  | ok fleet =>
    rw [committed] at h
    cases h
  | error e =>
    rw [committed] at h
    cases h
    exact reason_ofCommitError e

/-- What it means for the free vehicles that a driver has been asked: the vehicle is no longer free, or
the fleet has refused the ride and the vehicle is free again. -/
inductive Asked (s next : Session φ) : Prop
  | taken (v : VehicleId) :
    v ∈ s.state.unbound →
    (∀ w, w ∈ next.state.unbound ↔ v ≠ w ∧ w ∈ s.state.unbound) →
    next.report.dropped = s.report.dropped → Asked s next
  | refused (id : RequestId) :
    (∀ w, w ∈ next.state.unbound ↔ w ∈ s.state.unbound) →
    next.report.dropped = s.report.dropped ++ [(id, .commitFailed)] → Asked s next

/-- Asking the driver of a free indexed vehicle in service for a plannable request. -/
lemma openConfirmation_asked (sound : s.state.Sound)
    (indexed : s.state.zones.vehicles.contains p.vehicle = true)
    (serves : Fleet.isOutOfService s.fleet p.vehicle now = false)
    (queued : s.state.queue.get? p.request = some request) (inTime : request.isExpired now = false)
    (made : s.openConfirmation now p = .ok (placement, next)) : Asked s next := by
  have free {c : Confirmation} (opens : s.Opens now p c) : c.vehicle ∈ s.state.unbound := by
    obtain ⟨_, vehicle, _⟩ := opens.ends sound
    exact DispatchState.mem_unbound.mpr ⟨vehicle ▸ indexed, opens.admits.vehicle⟩
  cases openConfirmation_fate queued made with
  | waits opens => exact .taken _ (free opens) (fun w => mem_unbound_asking) rfl
  | rides opens =>
    refine .taken _ (free opens) (fun w => ?_) rfl
    exact mem_unbound_commitRide.trans (and_congr_right' (mem_unbound_close now opens.admits))
  | @drops c refusal opens complete outcome =>
    obtain ⟨own, vehicle, _⟩ := opens.ends sound
    rw [← vehicle] at serves
    rw [← own] at queued
    have accepted : c.accepted = true := by
      rw [opens.admits.accepted]
      exact complete
    have reason : refusal.reason = .commitFailed := reason_of_outcome accepted serves queued inTime outcome
    refine .refused c.request (fun w => mem_unbound_close now opens.admits) ?_
    rw [← reason]
    rfl

lemma consume_counts {id : ConfirmationId} : (s.consume now id).2.report.opened = s.report.opened ∧
    (s.consume now id).2.report.unmatched = s.report.unmatched := by
  unfold consume
  split
  · exact ⟨rfl, rfl⟩
  · split
    · exact ⟨rfl, rfl⟩
    · exact ⟨rfl, rfl⟩

/-- A driver that is asked is counted. -/
lemma openConfirmation_counts (queued : s.state.queue.get? p.request = some request)
    (made : s.openConfirmation now p = .ok (placement, next)) :
    next.report.opened = s.report.opened + 1 ∧ next.report.unmatched = s.report.unmatched := by
  cases openConfirmation_fate queued made with
  | waits => exact ⟨rfl, rfl⟩
  | rides => exact ⟨rfl, rfl⟩
  | drops => exact ⟨rfl, rfl⟩

end Session

/-! ## Turns -/

namespace Greedy

/-- One of the nearest indexed vehicles without a confirmation has a way to the pickup of a request. -/
def Servable (state : DispatchState) (ctx : CycleContext) (limit : Nat) (id : RequestId) : Prop :=
  ∃ request, state.queue.get? id = some request ∧
    ∃ v ∈ state.zones.vehicles.nearest request.origin.coord limit fun v =>
      !state.registry.isWaitingVehicle v,
      ∃ place route, state.zones.vehicles.place? v = some place ∧
        ctx.router.route? place request.origin ctx.now = some route

variable {ctx : CycleContext} {limit : Nat} {id : RequestId}

lemma servable_iff {state : DispatchState} {request : Request}
    (queued : state.queue.get? id = some request) :
    Servable state ctx limit id ↔
      ∃ v ∈ candidateVehicles state limit ctx.now request,
        ∃ route, ctx.router.route? v.place request.origin v.availableAt = some route := by
  constructor
  · rintro ⟨request', queued', v, near, place, route, placed, found⟩
    obtain rfl := Option.some.inj (queued.symm.trans queued')
    have candidate : ⟨v, place, ctx.now, true⟩ ∈ candidateVehicles state limit ctx.now request := by
      apply List.mem_filterMap.mpr
      exact ⟨v, near, by rw [placed, Option.map_some]⟩
    exact ⟨_, candidate, route, found⟩
  · rintro ⟨v, candidate, route, found⟩
    obtain ⟨id', near, entry⟩ := List.mem_filterMap.mp candidate
    obtain ⟨place, placed, rfl⟩ := Option.map_eq_some_iff.mp entry
    exact ⟨request, queued, id', near, place, route, placed, found⟩

/-- A request takes no vehicle just if it cannot be served. -/
lemma bestVehicle?_eq_none_iff {state : DispatchState} {request : Request}
    (queued : state.queue.get? id = some request) :
    bestVehicle? ctx.router request (candidateVehicles state limit ctx.now request) = none ↔
      ¬ Servable state ctx limit id := by
  rw [servable_iff queued, bestVehicle?_eq_none]
  constructor
  · rintro none_ ⟨v, candidate, route, found⟩
    rw [none_ v candidate] at found
    cases found
  · intro none_ v candidate
    rw [Option.eq_none_iff_forall_ne_some]
    intro route found
    exact none_ ⟨v, candidate, route, found⟩

lemma servable_iff_isSome {state : DispatchState} :
    Servable state ctx limit id ↔ ((state.queue.get? id).bind fun request =>
      bestVehicle? ctx.router request (candidateVehicles state limit ctx.now request)).isSome = true := by
  cases queued : state.queue.get? id with
  | none =>
    refine iff_of_false ?_ Bool.false_ne_true
    rintro ⟨request, queued', _⟩
    rw [queued] at queued'
    cases queued'
  | some request =>
    rw [Option.bind_some, ← Option.ne_none_iff_isSome, Ne, bestVehicle?_eq_none_iff queued, not_not]

instance {state : DispatchState} : Decidable (Servable state ctx limit id) :=
  decidable_of_iff _ servable_iff_isSome.symm

/-- Without a free vehicle nobody can be served. -/
lemma not_servable_of_unbound {state : DispatchState} (none_ : state.unbound.length = 0) :
    ¬ Servable state ctx limit id := by
  rintro ⟨request, _, v, near, _⟩
  obtain ⟨indexed, free⟩ := ZoneMap.mem_nearest near
  have member : v ∈ state.unbound := DispatchState.mem_unbound.mpr ⟨indexed, by simpa using free⟩
  rw [List.length_eq_zero_iff.mp none_] at member
  cases member

variable {φ : Type} [Fleet φ] {s : Session φ}

/-- The turn of one request: the number of idle vehicles that are left, and the session, after it. -/
def turn (ctx : CycleContext) (limit : Nat) (left : Nat × Session φ) (id : RequestId) :
    Nat × Session φ :=
  let next := (offerRequests ctx limit [id] left.1 left.2).session
  (if left.2.report.opened < next.report.opened then left.1 - 1 else left.1, next)

/-- What a turn can come to. -/
inductive Turn (ctx : CycleContext) (limit : Nat) (id : RequestId) :
    Nat × Session φ → Nat × Session φ → Prop
  | passes {idle : Nat} {s : Session φ} :
    s.state.isPlannable id ctx.now = false →
    Turn ctx limit id (idle, s) (idle, s)
  | exhausted {s : Session φ} :
    s.state.isPlannable id ctx.now = true →
    Turn ctx limit id (0, s) (0, { s with report := s.report.addUnmatched 1 })
  | unserved {idle : Nat} {s : Session φ} (astray : Bool) :
    s.state.isPlannable id ctx.now = true →
    ¬ Servable s.state ctx limit id →
    Turn ctx limit id (idle + 1, s)
      (idle + 1, { s.note astray with report := s.report.addUnmatched 1 })
  | asks {idle : Nat} {s next : Session φ} (astray : Bool) {request pairing placement} :
    s.state.isPlannable id ctx.now = true →
    s.state.queue.get? id = some request →
    bestVehicle? ctx.router request (candidateVehicles s.state limit ctx.now request) = some pairing →
    (s.note astray).openConfirmation ctx.now pairing = .ok (placement, next) →
    Turn ctx limit id (idle + 1, s) (idle, next)

/-- A pass begins with the turn of its first request. -/
lemma offerRequests_cons (ctx : CycleContext) (limit : Nat) (id : RequestId) (sound : s.state.Sound)
    (idle : Nat) :
    ∃ left, Turn ctx limit id (idle, s) left ∧ ∀ rest,
      (offerRequests ctx limit (id :: rest) idle s) = offerRequests ctx limit rest left.1 left.2 := by
  cases plannable : s.state.isPlannable id ctx.now with
  | false =>
    refine ⟨_, .passes plannable, ?_⟩
    intro rest
    rw [offerRequests, if_pos (by rw [plannable]; rfl)]
  | true =>
    obtain ⟨_, request, queued, _⟩ := DispatchState.isPlannable_iff.mp plannable
    cases idle with
    | zero =>
      refine ⟨_, .exhausted plannable, ?_⟩
      intro rest
      rw [offerRequests, if_neg (by rw [plannable]; decide), if_pos rfl]
    | succ idle =>
      cases best : bestVehicle? ctx.router request (candidateVehicles s.state limit ctx.now request) with
      | none =>
        refine ⟨_, .unserved (straysForRequest ctx.router request
          (candidateVehicles s.state limit ctx.now request)) plannable
          ((bestVehicle?_eq_none_iff queued).mp best), ?_⟩
        intro rest
        rw [offerRequests, if_neg (by rw [plannable]; decide), if_neg idle.succ_ne_zero, queued]
        simp only [best]
        rfl
      | some pairing =>
        obtain rfl := sound.queue _ _ queued
        have free := free_of_bestVehicle? plannable best
        obtain ⟨placement, next, made⟩ := Session.openConfirmation_of_free ctx.now
          (s := s.note (straysForRequest ctx.router request
            (candidateVehicles s.state limit ctx.now request))) sound free
        refine ⟨_, .asks _ plannable queued best made, ?_⟩
        intro rest
        have own : pairing.request = request.id := (bestVehicle?_eq_some best).1
        have counted := (Session.openConfirmation_counts (own ▸ queued) made).1
        rw [offerRequests, if_neg (by rw [plannable]; decide), if_neg idle.succ_ne_zero, queued]
        simp only [best, made]
        rw [if_pos (counted ▸ Nat.lt_succ_self _)]
        rfl

/-- The turn of a request is just one of these. -/
lemma turn_spec (ctx : CycleContext) (limit : Nat) (id : RequestId) (sound : s.state.Sound) (idle : Nat) :
    Turn ctx limit id (idle, s) (turn ctx limit (idle, s) id) ∧ ∀ rest,
      offerRequests ctx limit (id :: rest) idle s =
        offerRequests ctx limit rest (turn ctx limit (idle, s) id).1 (turn ctx limit (idle, s) id).2 := by
  obtain ⟨left, turned, pass⟩ := offerRequests_cons ctx limit id sound idle
  have same : turn ctx limit (idle, s) id = left := by
    unfold turn
    rw [pass []]
    cases turned with
    | passes => simp [offerRequests]
    | exhausted => simp [offerRequests, CycleReport.addUnmatched]
    | unserved => simp [offerRequests, CycleReport.addUnmatched, Session.note]
    | @asks idle _ next _ request pairing _ plannable queued best made =>
      obtain rfl := sound.queue _ _ queued
      have own := (bestVehicle?_eq_some best).1
      have counted : s.report.opened < next.report.opened := by
        rw [(Session.openConfirmation_counts (own ▸ queued) made).1]
        exact Nat.lt_succ_self _
      show (if s.report.opened < next.report.opened then idle + 1 - 1 else idle + 1, next) = (idle, next)
      rw [if_pos counted]
      rfl
  rw [same]
  exact ⟨turned, pass⟩

lemma turn_steps (left : Nat × Session φ) :
    Session.Steps ctx.now left.2 (turn ctx limit left id).2 :=
  offerRequests_steps

/-- A pass consists of the turns of its requests. -/
lemma offerRequests_eq_turns {ids : List RequestId} (sound : s.state.Sound) (idle : Nat) :
    (offerRequests ctx limit ids idle s).session = (ids.foldl (turn ctx limit) (idle, s)).2 := by
  induction ids generalizing idle s with
  | nil => rfl
  | cons id rest ih =>
    rw [(turn_spec ctx limit id sound idle).2 rest]
    exact ih ((turn_steps (idle, s)).sound sound) _

/-- A request is counted as unmatched at its turn if it is plannable and either the count has run out or
nobody near can serve it. -/
lemma Turn.unmatched {left left' : Nat × Session φ} (h : Turn ctx limit id left left')
    (sound : left.2.state.Sound) :
    (left'.2.report.unmatched = left.2.report.unmatched + 1 ↔
      left.2.state.isPlannable id ctx.now = true ∧
        (left.1 = 0 ∨ ¬ Servable left.2.state ctx limit id)) ∧
    (left'.2.report.unmatched = left.2.report.unmatched + 1 ∨
      left'.2.report.unmatched = left.2.report.unmatched) := by
  cases h with
  | passes not_plannable =>
    refine ⟨iff_of_false (Nat.succ_ne_self _).symm ?_, .inr rfl⟩
    rintro ⟨plannable, _⟩
    rw [not_plannable] at plannable
    cases plannable
  | exhausted plannable => exact ⟨iff_of_true rfl ⟨plannable, .inl rfl⟩, .inl rfl⟩
  | unserved _ plannable nobody => exact ⟨iff_of_true rfl ⟨plannable, .inr nobody⟩, .inl rfl⟩
  | @asks idle s next _ request pairing placement plannable queued best made =>
    -- the pairing shows that somebody can serve the request
    have servable : Servable s.state ctx limit id := by
      by_contra nobody
      rw [(bestVehicle?_eq_none_iff queued).mpr nobody] at best
      cases best
    obtain rfl := sound.queue _ _ queued
    have own := (bestVehicle?_eq_some best).1
    have same : next.report.unmatched = s.report.unmatched :=
      (Session.openConfirmation_counts (own ▸ queued) made).2
    refine ⟨iff_of_false ?_ ?_, .inr same⟩
    · rw [same]
      exact (Nat.succ_ne_self _).symm
    · rintro ⟨_, none_ | nobody⟩
      · exact absurd none_ idle.succ_ne_zero
      · exact nobody servable

/-! ## Choices -/

/-- What the choice of one vehicle can come to. -/
inductive Choice (ctx : CycleContext) (limit : Nat) (vehicle : VehicleEntry) : Session φ → Session φ → Prop
  | passes {s : Session φ} :
    vehicle.id ∉ s.state.unbound →
    Choice ctx limit vehicle s s
  | unserved {s : Session φ} (astray : Bool) :
    bestRequest? ctx.router vehicle (candidateRequests s.state limit ctx.now vehicle) = none →
    Choice ctx limit vehicle s (s.note astray)
  | asks {s next : Session φ} (astray : Bool) {pairing placement} :
    vehicle.id ∈ s.state.unbound →
    bestRequest? ctx.router vehicle (candidateRequests s.state limit ctx.now vehicle) = some pairing →
    (s.note astray).openConfirmation ctx.now pairing = .ok (placement, next) →
    Choice ctx limit vehicle s next

lemma Choice.steps {vehicle : VehicleEntry} {next : Session φ} (h : Choice ctx limit vehicle s next) :
    Session.Steps ctx.now s next := by
  cases h with
  | passes => exact .refl
  | unserved astray => exact .single (.note astray)
  | asks astray _ _ made => exact .of_note (Session.openConfirmation_steps made)

/-- Where vehicles choose, a pass is over when nothing is queued any longer, or it begins with the choice of
its first vehicle. -/
lemma offerVehicles_cons (ctx : CycleContext) (limit : Nat) (vehicle : VehicleEntry) (sound : s.state.Sound) :
    (s.state.queue.isEmpty = true ∧
      ∀ rest, offerVehicles ctx limit (vehicle :: rest) s = { session := s }) ∨
    ∃ next, Choice ctx limit vehicle s next ∧
      ∀ rest, offerVehicles ctx limit (vehicle :: rest) s = offerVehicles ctx limit rest next := by
  cases none_ : s.state.queue.isEmpty with
  | true =>
    refine .inl ⟨rfl, fun rest => ?_⟩
    rw [offerVehicles, if_pos none_]
  | false =>
    right
    by_cases free : vehicle.id ∈ s.state.unbound
    · obtain ⟨indexed, unasked⟩ := DispatchState.mem_unbound.mp free
      have open_ : ¬ (s.state.registry.isWaitingVehicle vehicle.id ||
          !s.state.zones.vehicles.contains vehicle.id) = true := by
        rw [indexed, unasked]
        decide
      cases best : bestRequest? ctx.router vehicle (candidateRequests s.state limit ctx.now vehicle) with
      | none =>
        refine ⟨_, .unserved (straysForVehicle ctx.router vehicle
          (candidateRequests s.state limit ctx.now vehicle)) best, fun rest => ?_⟩
        rw [offerVehicles, if_neg (by rw [none_]; decide), if_neg open_]
        simp only [best]
      | some pairing =>
        obtain ⟨placement, next, made⟩ := Session.openConfirmation_of_free ctx.now
          (s := s.note (straysForVehicle ctx.router vehicle
            (candidateRequests s.state limit ctx.now vehicle))) sound (free_of_bestRequest? sound unasked best)
        refine ⟨_, .asks _ free best made, fun rest => ?_⟩
        rw [offerVehicles, if_neg (by rw [none_]; decide), if_neg open_]
        simp only [best, made]
    · refine ⟨_, .passes free, fun rest => ?_⟩
      have closed : (s.state.registry.isWaitingVehicle vehicle.id ||
          !s.state.zones.vehicles.contains vehicle.id) = true := by
        rw [DispatchState.mem_unbound, not_and, Bool.not_eq_false] at free
        cases indexed : s.state.zones.vehicles.contains vehicle.id with
        | false => exact Bool.or_true _
        | true => rw [free indexed, Bool.true_or]
      rw [offerVehicles, if_neg (by rw [none_]; decide), if_pos closed]

/-! ## The count -/

/-- The count of a pass that began with a session: the vehicles that are left and those that have been
refused a ride in the pass are together the free ones. -/
structure Tallied (ctx : CycleContext) (start : Session ScheduledFleet)
    (left : Nat × Session ScheduledFleet) (refused : List RequestId) : Prop where
  sound : left.2.state.Sound
  inLine : left.2.InLine ctx.now
  dropped : left.2.report.dropped = start.report.dropped ++ refused.map fun r => (r, .commitFailed)
  count : left.1 + refused.length = left.2.state.unbound.length

variable {start : Session ScheduledFleet} {left left' : Nat × Session ScheduledFleet}
variable {refused : List RequestId}

/-- A turn keeps the tally. It adds at most one refused ride. -/
lemma Turn.tallied (h : Turn ctx limit id left left') (tallied : Tallied ctx start left refused)
    (steps : Session.Steps ctx.now left.2 left'.2) :
    ∃ refused', Tallied ctx start left' refused' := by
  have sound := steps.sound tallied.sound
  have inLine := steps.inLine tallied.inLine
  have count := tallied.count
  cases h with
  | passes => exact ⟨refused, tallied⟩
  | exhausted => exact ⟨refused, sound, inLine, tallied.dropped, count⟩
  | unserved => exact ⟨refused, sound, inLine, tallied.dropped, count⟩
  | @asks idle s next astray request pairing placement plannable queued best made =>
    obtain rfl := tallied.sound.queue _ _ queued
    obtain ⟨own, v, candidate, same, _⟩ := bestVehicle?_eq_some best
    have indexed : s.state.zones.vehicles.contains pairing.vehicle = true := by
      obtain ⟨id', near, entry⟩ := List.mem_filterMap.mp candidate
      obtain ⟨place, placed, rfl⟩ := Option.map_eq_some_iff.mp entry
      exact same ▸ (ZoneMap.mem_nearest near).1
    obtain ⟨_, request', queued', inTime⟩ := DispatchState.isPlannable_iff.mp plannable
    obtain rfl := Option.some.inj (queued.symm.trans queued')
    -- it is idle, so it serves, and only the fleet can refuse the ride
    have asked : Session.Asked (s.note astray) next :=
      Session.openConfirmation_asked tallied.sound indexed
        (ScheduledFleet.serves_of_isIdle (tallied.inLine.idle _ indexed)) (own ▸ queued) inTime made
    cases asked with
    | taken v free others dropped =>
      have fewer := DispatchState.length_unbound_of_taken free others
      refine ⟨refused, sound, inLine, dropped.trans tallied.dropped, ?_⟩
      simp only [Session.note] at fewer count ⊢
      omega
    | refused again others dropped =>
      have many := DispatchState.length_unbound_of_same others
      refine ⟨refused ++ [again], sound, inLine, ?_, ?_⟩
      · rw [dropped, List.map_append, ← List.append_assoc, ← tallied.dropped]
        rfl
      · rw [List.length_append, List.length_singleton]
        simp only [Session.note] at many count ⊢
        omega

/-- The turns of several requests keep the tally. -/
lemma Tallied.turns {ids : List RequestId} (tallied : Tallied ctx start left refused) :
    ∃ refused', Tallied ctx start (ids.foldl (turn ctx limit) left) refused' := by
  induction ids generalizing left refused with
  | nil => exact ⟨refused, tallied⟩
  | cons id rest ih =>
    obtain ⟨idle, s⟩ := left
    obtain ⟨refused', next⟩ := (turn_spec ctx limit id tallied.sound idle).1.tallied tallied (turn_steps _)
    exact ih next

end Greedy

/-! ## The pass of a cycle -/

namespace Dispatcher

variable {d : Dispatcher} {ctx : CycleContext}

/-- The pass of a cycle after the turns of some requests: how many idle vehicles are left by its count, and
the session. -/
def turns {φ : Type} [Fleet φ] (d : Dispatcher) (ctx : CycleContext) (fleet : φ)
    (ids : List RequestId) : Nat × Session φ :=
  ids.foldl (Greedy.turn ctx d.settings.nearestVehiclesLimit)
    ((d.view ctx.now fleet).idleVehicles, d.planned ctx.now fleet)

lemma turns_concat {φ : Type} [Fleet φ] {fleet : φ} {ids : List RequestId} {id : RequestId} :
    d.turns ctx fleet (ids ++ [id]) =
      Greedy.turn ctx d.settings.nearestVehiclesLimit (d.turns ctx fleet ids) id :=
  List.foldl_concat ..

/-- Where requests choose, the pass of a cycle offers them vehicles. -/
lemma pass_of_requestsChoose {φ : Type} [Fleet φ] {fleet : φ} (strategy : d.settings.strategy = .ruleBased)
    (mode : Greedy.vehicleInitiated d.settings.goal (d.view ctx.now fleet) = false) :
    (d.pass ctx fleet).session = (Greedy.offerRequests ctx d.settings.nearestVehiclesLimit
      (d.plans ctx.now fleet) (d.view ctx.now fleet).idleVehicles (d.planned ctx.now fleet)).session := by
  unfold pass
  split
  · rename_i none_
    rw [List.isEmpty_iff.mp none_]
    rfl
  · unfold Session.schedule
    rw [strategy]
    unfold Greedy.schedule
    rw [if_neg (by rw [mode]; decide)]

/-- So it consists of the turns of the requests that it plans. -/
lemma pass_eq_turns {φ : Type} [Fleet φ] {fleet : φ} (sound : d.state.Sound)
    (strategy : d.settings.strategy = .ruleBased)
    (mode : Greedy.vehicleInitiated d.settings.goal (d.view ctx.now fleet) = false) :
    (d.pass ctx fleet).session = (d.turns ctx fleet (d.plans ctx.now fleet)).2 :=
  (pass_of_requestsChoose strategy mode).trans
    (Greedy.offerRequests_eq_turns (planned_sound ctx.now fleet sound) _)

/-- Where vehicles choose, the pass of a cycle offers requests to the idle ones, and counts what is plannable
then. -/
lemma pass_of_vehiclesChoose {φ : Type} [Fleet φ] {fleet : φ} (sound : d.state.Sound)
    (strategy : d.settings.strategy = .ruleBased)
    (mode : Greedy.vehicleInitiated d.settings.goal (d.view ctx.now fleet) = true)
    (some_ : (d.plans ctx.now fleet).isEmpty = false) :
    let s := (Greedy.offerVehicles ctx d.settings.nearestRequestsLimit (d.view ctx.now fleet).idle
      (d.planned ctx.now fleet)).session
    (d.pass ctx fleet).session = { s with report := { s.report with
      unmatched := Greedy.countPlannable s.state ctx.now (d.plans ctx.now fleet) } } := by
  unfold pass
  rw [if_neg (by rw [some_]; decide)]
  unfold Session.schedule
  rw [strategy]
  unfold Greedy.schedule
  rw [if_pos mode]
  simp only [Greedy.offerVehicles_defect (planned_sound ctx.now fleet sound)]

variable {fleet : ScheduledFleet}

/-- The count of idle vehicles begins with the free vehicles of the index. -/
lemma tallied_planned (sound : d.state.Sound) (covered : d.state.zones.Covered fleet) :
    Greedy.Tallied ctx (d.planned ctx.now fleet) (d.turns ctx fleet []) [] where
  sound := planned_sound ctx.now fleet sound
  inLine := Session.Steps.inLine (planned_steps sound) (synced_inLine covered)
  dropped := (List.append_nil _).symm
  count := by
    show (d.view ctx.now fleet).idleVehicles = _
    exact Snapshot.idleVehicles_take _ _ fun _ => contains_planned sound covered

/-- At the turn of a request, `refused` being the requests whose rides the fleet has refused in the pass:
the request is counted as unmatched just if it is plannable and either as many rides have been refused as
vehicles are free, or none of the near ones can serve it. -/
lemma unmatched_turns (ctx : CycleContext) (sound : d.state.Sound)
    (covered : d.state.zones.Covered fleet) (before : List RequestId) (id : RequestId) :
    let t := (d.turns ctx fleet before).2
    let next := (d.turns ctx fleet (before ++ [id])).2
    ∃ refused : List RequestId,
      t.report.dropped = (d.planned ctx.now fleet).report.dropped ++
        refused.map (fun r => (r, .commitFailed)) ∧
      (next.report.unmatched = t.report.unmatched + 1 ↔ t.state.isPlannable id ctx.now = true ∧
        (t.state.unbound.length = refused.length ∨
          ¬ Greedy.Servable t.state ctx d.settings.nearestVehiclesLimit id)) ∧
      (next.report.unmatched = t.report.unmatched + 1 ∨ next.report.unmatched = t.report.unmatched) := by
  obtain ⟨refused, tallied⟩ : ∃ refused, Greedy.Tallied ctx (d.planned ctx.now fleet)
      (d.turns ctx fleet before) refused := (tallied_planned sound covered).turns
  have spec : Greedy.Turn ctx d.settings.nearestVehiclesLimit id (d.turns ctx fleet before)
      (d.turns ctx fleet (before ++ [id])) := by
    rw [turns_concat]
    exact (Greedy.turn_spec ctx _ id tallied.sound _).1
  obtain ⟨counted, once⟩ := spec.unmatched tallied.sound
  have exhausted : (d.turns ctx fleet before).1 = 0 ↔
      (d.turns ctx fleet before).2.state.unbound.length = refused.length := by
    rw [← tallied.count]
    omega
  rw [exhausted] at counted
  exact ⟨refused, tallied.dropped, counted, once⟩

end Dispatcher

end RideDispatch

import RideDispatch.Proofs.Accounts
import RideDispatch.Proofs.IdleSupply
import RideDispatch.Proofs.Stores

/-!
# Pairs that are left

A greedy pass makes one pairing after the other along a list that has been fixed before it begins. While it
goes on, vehicles become taken and requests are spent, and nothing else changes for those that are left
(`DispatchState.Fades`). So a pair that cannot be made at one moment cannot be made later. Each turn of a
request, and each choice of a vehicle, leaves nothing that could be made with it, unless the fleet refuses the
ride (`Greedy.Turn.settled`, `Greedy.Choice.settled`); and the pass stops early only where no vehicle is free
or nothing is queued. So in the end no pair is left that could be made, if no more vehicles are idle and no
more requests are plannable than a finder looks at (`Service.greedy_maximal`).
-/

namespace RideDispatch

/-! ## What fades -/

namespace DispatchState

variable {s s' s'' : DispatchState} {now : Time} {ctx : CycleContext} {v : VehicleId} {id : RequestId}

/-- Vehicles become taken and requests are spent, but nothing else changes for those that are left. -/
structure Fades (now : Time) (s s' : DispatchState) : Prop where
  unbound : ∀ v ∈ s'.unbound, v ∈ s.unbound ∧ s'.zones.vehicles.place? v = s.zones.vehicles.place? v
  plannable : ∀ id, s'.isPlannable id now = true →
    s.isPlannable id now = true ∧ s'.queue.get? id = s.queue.get? id

lemma Fades.refl (now : Time) (s : DispatchState) : s.Fades now s where
  unbound _ member := ⟨member, rfl⟩
  plannable _ still := ⟨still, rfl⟩

lemma Fades.trans (first : s.Fades now s') (second : s'.Fades now s'') : s.Fades now s'' where
  unbound v member := by
    obtain ⟨member, same⟩ := second.unbound v member
    exact ⟨(first.unbound v member).1, same.trans (first.unbound v member).2⟩
  plannable id still := by
    obtain ⟨still, same⟩ := second.plannable id still
    exact ⟨(first.plannable id still).1, same.trans (first.plannable id still).2⟩

/-- A free indexed vehicle has a way to the pickup of a plannable request. -/
def Pairable (s : DispatchState) (ctx : CycleContext) (v : VehicleId) (id : RequestId) : Prop :=
  v ∈ s.unbound ∧ s.isPlannable id ctx.now = true ∧
    ∃ place request route, s.zones.vehicles.place? v = some place ∧ s.queue.get? id = some request ∧
      ctx.router.route? place request.origin ctx.now = some route

/-- What can be paired could be paired before. -/
lemma Fades.pairable (fades : s.Fades ctx.now s') (h : s'.Pairable ctx v id) : s.Pairable ctx v id := by
  obtain ⟨free, plannable, place, request, route, placed, queued, way⟩ := h
  obtain ⟨free, here⟩ := fades.unbound v free
  obtain ⟨plannable, same⟩ := fades.plannable id plannable
  exact ⟨free, plannable, place, request, route, here ▸ placed, same ▸ queued, way⟩

lemma Fades.length_unbound (fades : s.Fades now s') : s'.unbound.length ≤ s.unbound.length :=
  (List.subperm_of_subset s'.nodup_unbound fun v member => (fades.unbound v member).1).length_le

/-- There are no more plannable requests than a number. -/
def Few (s : DispatchState) (now : Time) (limit : Nat) : Prop :=
  ∀ ids : List RequestId, ids.Nodup → (∀ id ∈ ids, s.isPlannable id now = true) → ids.length ≤ limit

lemma Fades.few {limit : Nat} (fades : s.Fades now s') (few : s.Few now limit) : s'.Few now limit :=
  fun ids distinct plannable => few ids distinct fun id member => (fades.plannable id (plannable id member)).1

end DispatchState

namespace Session

section Parts

variable {φ : Type} {s : Session φ} {now : Time} {c : Confirmation}

lemma fades_asking : s.state.Fades now (s.asking c).state where
  unbound v free := ⟨(mem_unbound_asking.mp free).2, rfl⟩
  plannable id still := by
    have both : (!decide (c.request = id) && s.state.isPlannable id now) = true :=
      isPlannable_asking.symm.trans still
    exact ⟨(Bool.and_eq_true_iff.mp both).2, rfl⟩

lemma fades_close (admits : s.state.registry.Admits c) :
    s.state.Fades now ((s.asking c).close now c).state where
  unbound _ free := ⟨(mem_unbound_close now admits).mp free, rfl⟩
  plannable _ still := ⟨(isPlannable_close admits).symm.trans still, rfl⟩

lemma fades_commitRide {fleet : φ} : s.state.Fades now (s.commitRide c fleet).state where
  unbound v free := by
    obtain ⟨other, free⟩ := mem_unbound_commitRide.mp free
    exact ⟨free, ZoneMap.place?_erase.trans (if_neg other)⟩
  plannable id still := by
    rw [isPlannable_commitRide, Bool.and_eq_true, Bool.not_eq_true', decide_eq_false_iff_not] at still
    exact ⟨still.2, RequestQueue.get?_erase.trans (if_neg still.1)⟩

end Parts

variable {φ : Type} [Fleet φ] {s next : Session φ} {now : Time} {p : Pairing} {placement : Placement}
variable {request : Request}

/-- When a driver has been asked, vehicles and requests have faded. If the confirmation has not been
dropped, the vehicle is no longer free and the request cannot be planned any longer. -/
lemma openConfirmation_fades (sound : s.state.Sound) (queued : s.state.queue.get? p.request = some request)
    (made : s.openConfirmation now p = .ok (placement, next)) :
    s.state.Fades now next.state ∧ (next.report.dropped = s.report.dropped →
      p.vehicle ∉ next.state.unbound ∧ next.state.isPlannable p.request now = false) := by
  cases openConfirmation_fate queued made with
  | waits opens =>
    obtain ⟨own, vehicle, _⟩ := opens.ends sound
    rw [← own, ← vehicle]
    refine ⟨fades_asking, fun _ => ⟨?_, ?_⟩⟩
    · intro free
      exact (mem_unbound_asking.mp free).1 rfl
    · exact isPlannable_asking.trans (by rw [decide_eq_true rfl]; rfl)
  | rides opens =>
    obtain ⟨own, vehicle, _⟩ := opens.ends sound
    rw [← own, ← vehicle]
    refine ⟨(fades_close opens.admits).trans fades_commitRide, fun _ => ⟨?_, ?_⟩⟩
    · intro free
      exact (mem_unbound_commitRide.mp free).1 rfl
    · rw [isPlannable_commitRide, decide_eq_true rfl]
      rfl
  | @drops c refusal opens =>
    refine ⟨fades_close opens.admits, fun same => ?_⟩
    replace same : s.report.dropped ++ [(c.request, refusal.reason)] = s.report.dropped := same
    simp at same

end Session

/-! ## Requests choose -/

namespace Greedy

variable {s : Session ScheduledFleet} {ctx : CycleContext} {limit : Nat} {id : RequestId}
variable {lost : List (RequestId × DropReason)}

/-- No ride is among those that the fleet has refused. -/
def Unrefused (lost : List (RequestId × DropReason)) : Prop := ∀ drop ∈ lost, drop.2 ≠ .commitFailed

/-- Among few vehicles, a request that nobody near can serve cannot be paired. -/
lemma not_pairable_of_not_servable {state : DispatchState} {v : VehicleId}
    (few : state.unbound.length ≤ limit) (nobody : ¬ Servable state ctx limit id) :
    ¬ state.Pairable ctx v id := by
  rintro ⟨free, _, place, request, route, placed, queued, way⟩
  refine nobody ⟨request, queued, v, ?_, place, route, placed, way⟩
  obtain ⟨indexed, unasked⟩ := DispatchState.mem_unbound.mp free
  exact (ZoneMap.mem_nearest_of_few few).mpr ⟨indexed, by rw [unasked]; rfl⟩

/-- After its turn a request cannot be paired, unless the fleet has refused its ride. -/
lemma Turn.settled {left left' : Nat × Session ScheduledFleet} (h : Turn ctx limit id left left')
    (sound : left.2.state.Sound) (count : left.1 = left.2.state.unbound.length)
    (few : left.2.state.unbound.length ≤ limit) :
    left.2.state.Fades ctx.now left'.2.state ∧ (left'.2.report.dropped = left.2.report.dropped →
      ∀ v, ¬ left'.2.state.Pairable ctx v id) := by
  cases h with
  | @passes idle s unplannable =>
    refine ⟨.refl _ _, fun _ v pairable => ?_⟩
    have plannable := pairable.2.1
    rw [unplannable] at plannable
    cases plannable
  | @exhausted s plannable =>
    refine ⟨.refl _ _, fun _ v pairable => ?_⟩
    have member : v ∈ s.state.unbound := pairable.1
    rw [List.eq_nil_of_length_eq_zero count.symm] at member
    cases member
  | @unserved idle s astray plannable nobody =>
    exact ⟨.refl _ _, fun _ v => not_pairable_of_not_servable few nobody⟩
  | @asks idle s next astray request pairing placement plannable queued best made =>
    obtain rfl := sound.queue _ _ queued
    have own := (bestVehicle?_eq_some best).1
    obtain ⟨fades, taken⟩ := Session.openConfirmation_fades (s := s.note astray) sound (own ▸ queued) made
    refine ⟨fades, fun accepted v pairable => ?_⟩
    have gone := (taken accepted).2
    rw [own, pairable.2.1] at gone
    cases gone

/-- Where requests choose, none of them can be paired in the end, unless the fleet has refused a ride. -/
lemma offerRequests_maximal {ids : List RequestId} {idle : Nat} (sound : s.state.Sound)
    (inLine : s.InLine ctx.now) (count : idle = s.state.unbound.length)
    (few : s.state.unbound.length ≤ limit) (distinct : ids.Nodup) (unrefused : Unrefused lost)
    (dropped : (offerRequests ctx limit ids idle s).session.report.dropped = s.report.dropped ++ lost) :
    let final := (offerRequests ctx limit ids idle s).session.state
    s.state.Fades ctx.now final ∧ ∀ id ∈ ids, ∀ v, ¬ final.Pairable ctx v id := by
  induction ids generalizing idle s with
  | nil => exact ⟨.refl _ _, nofun⟩
  | cons id rest ih =>
    obtain ⟨_, distinct⟩ := List.nodup_cons.mp distinct
    obtain ⟨turned, pass⟩ := turn_spec ctx limit id sound idle
    have steps : Session.Steps ctx.now s (turn ctx limit (idle, s) id).2 := turn_steps (idle, s)
    rw [pass rest] at dropped ⊢
    generalize turn ctx limit (idle, s) id = left at *
    obtain ⟨idle', next⟩ := left
    have tallied : Tallied ctx s (idle, s) [] := ⟨sound, inLine, (List.append_nil _).symm, count⟩
    obtain ⟨refused, tallied⟩ := turned.tallied tallied steps
    obtain ⟨_, _, lost', adds, _⟩ :=
      offerRequests_adds ctx limit tallied.sound distinct idle'
    -- nothing has been refused at the turn
    have parts : refused.map (fun r => (r, DropReason.commitFailed)) ++ lost' = lost := by
      rw [adds.dropped, tallied.dropped, List.append_assoc] at dropped
      exact List.append_cancel_left dropped
    obtain rfl : refused = [] := by
      cases refused with
      | nil => rfl
      | cons id' more => exact absurd rfl (unrefused (id', .commitFailed) (parts ▸ List.mem_cons_self))
    have same : next.report.dropped = s.report.dropped := tallied.dropped.trans (List.append_nil _)
    obtain ⟨fades, settled⟩ := turned.settled sound count few
    obtain ⟨fades', others⟩ := ih tallied.sound tallied.inLine tallied.count
      (fades.length_unbound.trans few) distinct (same ▸ dropped)
    refine ⟨fades.trans fades', ?_⟩
    intro id' member v pairable
    rcases List.mem_cons.mp member with rfl | member
    · exact settled same v (fades'.pairable pairable)
    · exact others id' member v pairable

/-! ## Vehicles choose -/

lemma mem_queue_of_plannable {state : DispatchState} {now : Time}
    (plannable : state.isPlannable id now = true) : id ∈ state.queue.ids := by
  obtain ⟨_, r, queued, _⟩ := DispatchState.isPlannable_iff.mp plannable
  apply Std.ExtTreeMap.mem_keys.mpr
  show state.queue.contains id = true
  rw [RequestQueue.contains_eq_isSome, queued]
  rfl

/-- Few plannable requests are all candidates for any vehicle. -/
lemma mem_candidateRequests_of_few {state : DispatchState} {resolution : Resolution} {now : Time}
    {e : VehicleEntry} {request : Request} (indexed : state.Indexed resolution) (few : state.Few now limit)
    (plannable : state.isPlannable id now = true) (queued : state.queue.get? id = some request) :
    request ∈ candidateRequests state limit now e := by
  refine List.mem_filterMap.mpr ⟨id, (ZoneMap.mem_nearest_of_few ?_).mpr ⟨?_, plannable⟩, queued⟩
  · apply few
    · exact ZoneMap.nodup_keys.filter _
    · intro id member
      exact (List.mem_filter.mp member).2
  · rw [← ZoneMap.mem_keys, indexed.keys_eq]
    exact mem_queue_of_plannable plannable

/-- The entry of a vehicle tells where it is indexed if it is free, and that it is available at once. -/
def Seen (state : DispatchState) (now : Time) (e : VehicleEntry) : Prop :=
  e.availableAt = now ∧ (e.id ∈ state.unbound → state.zones.vehicles.place? e.id = some e.place)

lemma Seen.fades {state state' : DispatchState} {now : Time} {e : VehicleEntry} (seen : Seen state now e)
    (fades : state.Fades now state') : Seen state' now e := by
  refine ⟨seen.1, fun free => ?_⟩
  obtain ⟨free, same⟩ := fades.unbound e.id free
  exact same.trans (seen.2 free)

/-- After its choice a vehicle cannot be paired, unless the fleet has refused its ride. -/
lemma Choice.settled {next : Session ScheduledFleet} {vehicle : VehicleEntry} {resolution : Resolution}
    (h : Choice ctx limit vehicle s next) (sound : s.state.Sound) (inLine : s.InLine ctx.now)
    (indexed : s.state.Indexed resolution) (seen : Seen s.state ctx.now vehicle)
    (few : s.state.Few ctx.now limit) :
    s.state.Fades ctx.now next.state ∧
      ((next.report.dropped = s.report.dropped ∧ ∀ id, ¬ next.state.Pairable ctx vehicle.id id) ∨
        ∃ id, next.report.dropped = s.report.dropped ++ [(id, .commitFailed)]) := by
  cases h with
  | passes taken => exact ⟨.refl _ _, .inl ⟨rfl, fun id pairable => taken pairable.1⟩⟩
  | unserved astray none_ =>
    refine ⟨.refl _ _, .inl ⟨rfl, ?_⟩⟩
    rintro id ⟨free, plannable, place, request, route, placed, queued, way⟩
    have candidate : request ∈ candidateRequests s.state limit ctx.now vehicle :=
      mem_candidateRequests_of_few indexed few plannable queued
    have nowhere := bestRequest?_eq_none.mp none_ request candidate
    obtain rfl : vehicle.place = place := Option.some.inj ((seen.2 free).symm.trans placed)
    rw [seen.1, way] at nowhere
    cases nowhere
  | @asks _ astray pairing _ free best made =>
    obtain ⟨own, r, candidate, same, _⟩ := bestRequest?_eq_some best
    obtain ⟨plannable, queued⟩ := plannable_of_mem_candidateRequests sound candidate
    obtain ⟨_, r', queued', inTime⟩ := DispatchState.isPlannable_iff.mp plannable
    obtain rfl := Option.some.inj (queued.symm.trans queued')
    rw [same] at queued
    have contained : s.state.zones.vehicles.contains pairing.vehicle = true := by
      rw [own]
      exact (DispatchState.mem_unbound.mp free).1
    obtain ⟨fades, taken⟩ := Session.openConfirmation_fades (s := s.note astray) sound queued made
    have asked : Session.Asked (s.note astray) next :=
      Session.openConfirmation_asked sound contained
        (ScheduledFleet.serves_of_isIdle (inLine.idle _ contained)) queued inTime made
    refine ⟨fades, ?_⟩
    cases asked with
    | taken _ _ _ dropped =>
      refine .inl ⟨dropped, fun id pairable => (taken dropped).1 ?_⟩
      rw [own]
      exact pairable.1
    | refused id _ dropped => exact .inr ⟨id, dropped⟩

/-- Where vehicles choose, none of them can be paired in the end, unless the fleet has refused a ride. -/
lemma offerVehicles_maximal {vehicles : List VehicleEntry} {resolution : Resolution} (sound : s.state.Sound)
    (inLine : s.InLine ctx.now) (indexed : s.state.Indexed resolution)
    (seen : ∀ e ∈ vehicles, Seen s.state ctx.now e) (few : s.state.Few ctx.now limit)
    (unrefused : Unrefused lost)
    (dropped : (offerVehicles ctx limit vehicles s).session.report.dropped = s.report.dropped ++ lost) :
    let final := (offerVehicles ctx limit vehicles s).session.state
    s.state.Fades ctx.now final ∧ ∀ e ∈ vehicles, ∀ id, ¬ final.Pairable ctx e.id id := by
  induction vehicles generalizing s with
  | nil => exact ⟨.refl _ _, nofun⟩
  | cons vehicle rest ih =>
    rcases offerVehicles_cons ctx limit vehicle sound with ⟨none_, done⟩ | ⟨next, choice, pass⟩
    · rw [done rest]
      refine ⟨.refl _ _, ?_⟩
      rintro e _ id ⟨_, _, _, request, _, _, queued, _⟩
      have empty : s.state.queue.requests = ∅ := Std.ExtTreeMap.isEmpty_iff.mp none_
      unfold RequestQueue.get? at queued
      rw [empty] at queued
      cases queued
    · rw [pass rest] at dropped ⊢
      have steps := choice.steps
      obtain ⟨_, lost', adds, _⟩ := offerVehicles_adds limit rest
        (steps.sound sound) RequestQueue.nodup_ids fun _ => mem_queue_of_plannable
      obtain ⟨fades, ⟨same, settled⟩ | ⟨id, refused⟩⟩ :=
        choice.settled sound inLine indexed (seen _ List.mem_cons_self) few
      · obtain ⟨fades', others⟩ := ih (steps.sound sound) (steps.inLine inLine) (steps.indexed indexed)
          (fun e member => (seen e (List.mem_cons_of_mem _ member)).fades fades) (fades.few few)
          (same ▸ dropped)
        refine ⟨fades.trans fades', ?_⟩
        intro e member id pairable
        rcases List.mem_cons.mp member with rfl | member
        · exact settled id (fades'.pairable pairable)
        · exact others e member id pairable
      · -- nothing has been refused at the choice
        rw [adds.dropped, refused, List.append_assoc] at dropped
        have parts := List.append_cancel_left dropped
        exact absurd rfl (unrefused (id, .commitFailed) (parts ▸ List.mem_cons_self))

end Greedy

/-! ## Passes -/

namespace Dispatcher

open DispatchState

variable {d : Dispatcher} {ctx : CycleContext} {fleet : ScheduledFleet} {resolution : Resolution}

/-- The confirmations that the pass of a cycle has dropped. -/
def droppedInPass (d : Dispatcher) (ctx : CycleContext) (fleet : ScheduledFleet) :
    List (RequestId × DropReason) :=
  (d.pass ctx fleet).session.report.dropped.drop (d.planned ctx.now fleet).report.dropped.length

/-- A rule-based pass leaves no free vehicle that could be paired with a planned request, if the idle vehicles
and the plannable requests are few and the fleet refuses no ride. -/
lemma pass_maximal (sound : d.state.Sound) (covered : d.state.zones.Covered fleet)
    (placed : (d.planned ctx.now fleet).state.zones.Placed (d.planned ctx.now fleet).fleet)
    (indexed : (d.planned ctx.now fleet).state.Indexed resolution)
    (strategy : d.settings.strategy = .ruleBased)
    (fewVehicles : (d.view ctx.now fleet).idleVehicles ≤ d.settings.nearestVehiclesLimit)
    (fewRequests : (d.planned ctx.now fleet).state.Few ctx.now d.settings.nearestRequestsLimit)
    (unrefused : Greedy.Unrefused (d.droppedInPass ctx fleet)) {v : VehicleId} {id : RequestId}
    (planned : id ∈ d.plans ctx.now fleet) : ¬ (d.pass ctx fleet).session.state.Pairable ctx v id := by
  have sound' := planned_sound ctx.now fleet sound
  have inLine : (d.planned ctx.now fleet).InLine ctx.now :=
    Session.Steps.inLine (planned_steps sound) (synced_inLine covered)
  have idle (v : VehicleId) : (d.planned ctx.now fleet).state.zones.vehicles.contains v =
      (d.planned ctx.now fleet).fleet.isIdle v ctx.now := contains_planned sound covered
  obtain ⟨_, _, lost, adds, _⟩ := pass_adds ctx fleet sound ScheduledFleet.nodup_vehicleIds
  have dropped := adds.dropped
  unfold droppedInPass at unrefused
  rw [dropped, List.drop_left] at unrefused
  cases mode : Greedy.vehicleInitiated d.settings.goal (d.view ctx.now fleet) with
  | false =>
    rw [pass_of_requestsChoose strategy mode] at dropped ⊢
    have count : (d.view ctx.now fleet).idleVehicles = (d.planned ctx.now fleet).state.unbound.length :=
      Snapshot.idleVehicles_take _ _ idle
    exact (Greedy.offerRequests_maximal sound' inLine count (count ▸ fewVehicles) nodup_plans unrefused
      dropped).2 id planned v
  | true =>
    have some_ : (d.plans ctx.now fleet).isEmpty = false := by
      rw [List.isEmpty_eq_false_iff]
      exact List.ne_nil_of_mem planned
    rw [pass_of_vehiclesChoose sound strategy mode some_] at dropped ⊢
    have seen : ∀ e ∈ (d.view ctx.now fleet).idle, Greedy.Seen (d.planned ctx.now fleet).state ctx.now e := by
      intro e member
      refine ⟨(Snapshot.of_mem_idle member).2, fun free => ?_⟩
      exact Snapshot.placed_of_mem_idle placed member (mem_unbound.mp free).1
    obtain ⟨fades, settled⟩ :=
      Greedy.offerVehicles_maximal sound' inLine indexed seen fewRequests unrefused dropped
    intro pairable
    -- a vehicle that is free in the end has had its choice
    have free : v ∈ (d.planned ctx.now fleet).state.unbound := (fades.pairable pairable).1
    have ids : (d.view ctx.now fleet).idle.map VehicleEntry.id = (d.planned ctx.now fleet).state.unbound :=
      Snapshot.ids_idle_eq_unbound idle
    rw [← ids] at free
    obtain ⟨e, member, rfl⟩ := List.mem_map.mp free
    exact settled e member id pairable

end Dispatcher

/-! ## Services -/

namespace Service

variable {s : Service} {errand : Errand} {errands : List Errand} {resolution : Resolution}

lemma indexed_act (sound : s.dispatcher.state.Sound) (h : s.dispatcher.state.Indexed resolution) :
    (s.act errand).dispatcher.state.Indexed resolution := by
  cases errand with
  | submit request => exact h.insert request
  | withdraw id now =>
    simp only [act]
    cases gone : s.dispatcher.withdraw id now with
    | none => exact h
    | some w =>
      rw [Dispatcher.withdraw_eq sound] at gone
      obtain ⟨request, _, rfl⟩ := Option.map_eq_some_iff.mp gone
      exact h.erase id
  | cycle ctx => exact Dispatcher.answer_indexed (.cycle ctx s.fleet) sound h
  | advance => exact h
  | addVehicle =>
    simp only [act]
    split <;> exact h

lemma indexed_run (ready : s.Ready) (h : s.dispatcher.state.Indexed resolution) :
    (s.run errands).dispatcher.state.Indexed resolution := by
  induction errands generalizing s with
  | nil => exact h
  | cons errand rest ih => exact ih ready.act (indexed_act ready.sound h)

/-- Whatever a service has been asked to do before, and whether requests or vehicles choose: a cycle with the
rule-based strategy in which the idle vehicles and the plannable requests are no more than are looked at, and
in which the fleet refuses no ride that the pass gives, leaves no pair that could still be made. From where a
vehicle will be that is indexed and free of confirmations in the end, the router of the cycle has no way to
the pickup of a planned request that is still plannable. -/
theorem greedy_maximal (settings : Settings) (resolution : Resolution) (router : Router)
    (pickupDuration dropoffDuration : Time) (errands : List Errand) (ctx : CycleContext)
    (strategy : settings.strategy = .ruleBased)
    (fewVehicles :
      let s := (fresh settings resolution router pickupDuration dropoffDuration).run errands
      (s.dispatcher.view ctx.now s.fleet).idleVehicles ≤ settings.nearestVehiclesLimit)
    (fewRequests :
      let s := (fresh settings resolution router pickupDuration dropoffDuration).run errands
      ((s.dispatcher.planned ctx.now s.fleet).state.plannable ctx.now
        (s.dispatcher.plans ctx.now s.fleet)).length ≤ settings.nearestRequestsLimit)
    (unrefused :
      let s := (fresh settings resolution router pickupDuration dropoffDuration).run errands
      ∀ drop ∈ s.dispatcher.droppedInPass ctx s.fleet, drop.2 ≠ .commitFailed) :
    let s := (fresh settings resolution router pickupDuration dropoffDuration).run errands
    let result := s.dispatcher.runCycle ctx s.fleet
    let final := result.dispatcher.state
    ∀ v ∈ final.unbound, ∀ id ∈ s.dispatcher.plans ctx.now s.fleet,
      final.isPlannable id ctx.now = true → ∃ x request, result.fleet.vehicle? v = some x ∧
        final.zones.vehicles.place? v = some x.finalPlace ∧ final.queue.get? id = some request ∧
        ctx.router.route? x.finalPlace request.origin ctx.now = none := by
  intro s result final v free id planned plannable
  have stocked : s.Stocked resolution := Stocked.fresh.run
  have same : s.dispatcher.settings = settings := settings_run
  have indexed : s.dispatcher.state.Indexed resolution := indexed_run .fresh (.empty _)
  have steps : Session.Steps ctx.now (s.dispatcher.synced ctx.now s.fleet)
      (s.dispatcher.planned ctx.now s.fleet) := Dispatcher.planned_steps stocked.ready.sound
  have passes : Session.Steps ctx.now (s.dispatcher.synced ctx.now s.fleet)
      (s.dispatcher.pass ctx s.fleet).session := Dispatcher.synced_steps stocked.ready.sound
  have begun : (s.dispatcher.begin ctx.now s.fleet).state.Indexed resolution :=
    ⟨indexed.resolution_eq, indexed.members, indexed.tidy⟩
  have few : (s.dispatcher.planned ctx.now s.fleet).state.Few ctx.now settings.nearestRequestsLimit := by
    intro ids distinct plannable
    refine Nat.le_trans (List.subperm_of_subset distinct fun id member => ?_).length_le fewRequests
    have here := plannable id member
    exact List.mem_filter.mpr ⟨(Dispatcher.isPlannable_planned.mp here).1, here⟩
  have unpaired : ¬ (s.dispatcher.pass ctx s.fleet).session.state.Pairable ctx v id :=
    Dispatcher.pass_maximal stocked.ready.sound stocked.ready.covered (stocked.steps steps).2
      (Session.Steps.indexed steps (Session.Step.sync.indexed begun)) (same ▸ strategy)
      (same ▸ fewVehicles) (same ▸ few) unrefused planned
  obtain ⟨contained, _⟩ := DispatchState.mem_unbound.mp free
  rw [ZoneMap.contains_eq_isSome_place?] at contained
  obtain ⟨place, placed⟩ := Option.isSome_iff_exists.mp contained
  obtain ⟨x, found, rfl⟩ := (stocked.steps passes).2 v place placed
  obtain ⟨_, request, queued, _⟩ := DispatchState.isPlannable_iff.mp plannable
  refine ⟨x, request, found, placed, queued, ?_⟩
  rw [Option.eq_none_iff_forall_ne_some]
  intro route way
  exact unpaired ⟨free, plannable, _, request, route, placed, queued, way⟩

/-- Two vehicles and two requests, one of which cannot be reached. -/
def farRequest : List Errand :=
  [.addVehicle ⟨7⟩ (.onDiagonal 1) 0 .never, .addVehicle ⟨8⟩ (.onDiagonal 5) 0 .never,
    .submit (.immediate ⟨1⟩ ⟨11⟩ (.onDiagonal 2) (.onDiagonal 4) 0 none),
    .submit (.immediate ⟨2⟩ ⟨12⟩ (.onDiagonal 3) (.onDiagonal 4) 0 none)]

theorem greedy_maximal_farRequest :
    let settings : Settings := { goal := .minPickupTime }
    let s := (fresh settings 9 steadyRouter ⟨120⟩ ⟨60⟩).run farRequest
    let ctx : CycleContext := ⟨0, closedRouter⟩
    let result := s.dispatcher.runCycle ctx s.fleet
    let final := result.dispatcher.state
    settings.strategy = .ruleBased ∧
    (s.dispatcher.view ctx.now s.fleet).idleVehicles ≤ settings.nearestVehiclesLimit ∧
    ((s.dispatcher.planned ctx.now s.fleet).state.plannable ctx.now
      (s.dispatcher.plans ctx.now s.fleet)).length ≤ settings.nearestRequestsLimit ∧
    (∀ drop ∈ s.dispatcher.droppedInPass ctx s.fleet, drop.2 ≠ .commitFailed) ∧
    final.unbound = [⟨8⟩] ∧ final.isPlannable ⟨2⟩ ctx.now = true ∧
    ∃ x request, result.fleet.vehicle? ⟨8⟩ = some x ∧
      final.zones.vehicles.place? ⟨8⟩ = some x.finalPlace ∧ final.queue.get? ⟨2⟩ = some request ∧
      ctx.router.route? x.finalPlace request.origin ctx.now = none := by
  refine ⟨rfl, by decide +kernel, by decide +kernel, by decide +kernel, by decide +kernel,
    by decide +kernel, ?_⟩
  exact greedy_maximal { goal := .minPickupTime } 9 steadyRouter ⟨120⟩ ⟨60⟩ farRequest ⟨0, closedRouter⟩ rfl
    (by decide +kernel) (by decide +kernel) (by decide +kernel) ⟨8⟩ (by decide +kernel) ⟨2⟩
    (by decide +kernel) (by decide +kernel)

end Service

end RideDispatch

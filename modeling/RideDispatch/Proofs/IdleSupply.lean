import RideDispatch.Proofs.Course
import RideDispatch.Proofs.Tidy
import RideDispatch.Proofs.Unmatched

/-!
# The supply of idle vehicles

A cycle knows the idle vehicles twice. The index has been kept by and by, brought in line with the fleet
when the cycle began and again if rides were settled; the snapshot is taken from the fleet afresh. Whatever a
service has been asked to do before, both agree when the strategy is about to make pairings
(`Service.idle_supply`). What is to be known of the index is that vehicles are filed in the cells of their
places and that these are the places where they will be, which is so at any time (`Service.Stocked`).
-/

namespace RideDispatch

/-! ## Idle vehicles in a snapshot -/

namespace Snapshot

variable {requests : List Request} {fleet : ScheduledFleet} {registry : Registry} {settings : Settings}
variable {now limit : Time} {v : VehicleId}

/-- Just the idle vehicles have idle entries. -/
lemma id_of_reachable? :
    ((reachable? fleet now limit (v, Fleet.isIdle fleet v now)).filter VehicleEntry.idle).map
      VehicleEntry.id = Option.guard (Fleet.isIdle fleet · now) v := by
  unfold reachable?
  rw [Option.guard_apply]
  cases idle : Fleet.isIdle fleet v now with
  | false =>
    split
    · rfl
    · split <;> rfl
  | true =>
    obtain ⟨idleness, found⟩ :=
      Option.isSome_iff_exists.mp (ScheduledFleet.earliestIdleness_of_isIdle idle)
    rw [show Fleet.earliestIdleness fleet v now = some idleness from found]
    rfl

/-- The idle entries are for the idle vehicles without a confirmation, in the order of the fleet. -/
lemma ids_idle : (take requests fleet registry settings now).idle.map VehicleEntry.id =
    (Fleet.vehicleIds fleet).filter fun v => fleet.isIdle v now && !registry.isWaitingVehicle v := by
  show (((freeVehicles fleet registry now).filterMap (reachable? fleet now _)).filter
    VehicleEntry.idle).map VehicleEntry.id = _
  unfold freeVehicles
  rw [List.filterMap_map, List.filter_filterMap, List.map_filterMap]
  simp only [Function.comp_apply, id_of_reachable?]
  rw [List.filterMap_eq_filter, List.filter_filter]
  apply List.filter_congr
  intro v _
  show (fleet.isIdle v now && (!registry.isWaitingVehicle v && !fleet.isOutOfService v now)) = _
  cases idle : fleet.isIdle v now with
  | false => rfl
  | true =>
    -- an idle vehicle is in service
    rw [ScheduledFleet.serves_of_isIdle idle, Bool.not_false, Bool.and_true]

/-- So they are the free vehicles of an index that lists just the idle ones. -/
lemma ids_idle_eq_unbound {s : DispatchState}
    (inLine : ∀ v, s.zones.vehicles.contains v = fleet.isIdle v now) :
    (take requests fleet s.registry settings now).idle.map VehicleEntry.id = s.unbound := by
  rw [ids_idle]
  have ascending (a b : VehicleId) (before : compare a b = .lt) (after : compare b a = .lt) : a = b := by
    rw [Std.OrientedCmp.gt_of_lt after] at before
    cases before
  refine List.Perm.eq_of_pairwise (fun a b _ _ => ascending a b) ?_ ?_ ?_
  · exact Std.ExtTreeMap.ordered_keys.filter _
  · exact Std.ExtTreeMap.ordered_keys.filter _
  · apply (List.perm_ext_iff_of_nodup (fleet.nodup_vehicleIds.filter _) s.nodup_unbound).mpr
    intro v
    rw [DispatchState.mem_unbound, List.mem_filter, Bool.and_eq_true, Bool.not_eq_true', inLine]
    refine and_iff_right_of_imp ?_
    rintro ⟨idle, _⟩
    exact ScheduledFleet.mem_vehicleIds.mpr (ScheduledFleet.isSome_of_isIdle idle)

/-- An idle entry tells where its vehicle will be, and that it is available at once. -/
lemma of_mem_idle {e : VehicleEntry} (member : e ∈ (take requests fleet registry settings now).idle) :
    (∃ x, fleet.vehicle? e.id = some x ∧ x.finalPlace = e.place) ∧ e.availableAt = now := by
  obtain ⟨listed, idle⟩ := List.mem_filter.mp member
  obtain ⟨x, found, serves, same, place, available, _⟩ := of_mem_vehicles listed
  obtain ⟨x', found', _, free⟩ := ScheduledFleet.isIdle_iff.mp (same.symm.trans idle)
  obtain rfl : x = x' := Option.some.inj (found.symm.trans found')
  refine ⟨⟨x, found, place.symm⟩, ?_⟩
  rw [available, Vehicle.availableAt_of_isFree serves free]

/-- Where vehicles are indexed where they will be, an idle entry tells where its vehicle is indexed. -/
lemma placed_of_mem_idle {e : VehicleEntry} {z : Zones} (placed : z.Placed fleet)
    (member : e ∈ (take requests fleet registry settings now).idle)
    (indexed : z.vehicles.contains e.id = true) : z.vehicles.place? e.id = some e.place := by
  obtain ⟨⟨x, found, place⟩, _⟩ := of_mem_idle member
  rw [ZoneMap.contains_eq_isSome_place?] at indexed
  obtain ⟨place', here⟩ := Option.isSome_iff_exists.mp indexed
  obtain ⟨x', found', rfl⟩ := placed e.id place' here
  obtain rfl : x = x' := Option.some.inj (found.symm.trans found')
  rw [here, place]

end Snapshot

/-! ## The index of vehicles -/

namespace Session

variable {s s' : Session ScheduledFleet} {now : Time} {resolution : Resolution}

/-- Every step of a cycle leaves vehicles in the cells of their places. -/
lemma Step.filed (step : Step now s s') (h : s.state.zones.vehicles.Filed resolution) :
    s'.state.zones.vehicles.Filed resolution := by
  cases step with
  | sync =>
    exact Zones.syncVehicles_induction (·.Filed resolution) (fun m id place _ filed => filed.insert id place)
      (fun m id filed => filed.erase id) h
  | attempts => exact h
  | tally => exact h
  | note => exact h
  | opens => exact h
  | @commits c => exact h.erase c.vehicle
  | drops => exact h

/-- Every step of a cycle leaves vehicles where they will be. -/
lemma Step.placed (step : Step now s s') (h : s.state.zones.Placed s.fleet) :
    s'.state.zones.Placed s'.fleet := by
  cases step with
  | sync => exact h.sync
  | attempts => exact h
  | tally => exact h
  | note => exact h
  | opens => exact h
  | commits _ _ outcome =>
    obtain ⟨_, _, _, _, _, committed⟩ := outcome_eq_ok outcome
    exact Zones.Placed.commit h committed
  | drops => exact h

lemma Steps.filed (steps : Steps now s s') (h : s.state.zones.vehicles.Filed resolution) :
    s'.state.zones.vehicles.Filed resolution := by
  induction steps with
  | refl => exact h
  | tail _ step ih => exact step.filed ih

lemma Steps.placed (steps : Steps now s s') (h : s.state.zones.Placed s.fleet) :
    s'.state.zones.Placed s'.fleet := by
  induction steps with
  | refl => exact h
  | tail _ step ih => exact step.placed ih

end Session

/-! ## Services -/

namespace Service

variable {s : Service} {errand : Errand} {errands : List Errand} {resolution : Resolution}

/-- Vehicles of the fleet are filed where they will be. -/
structure Stocked (s : Service) (resolution : Resolution) : Prop where
  ready : s.Ready
  filed : s.dispatcher.state.zones.vehicles.Filed resolution
  placed : s.dispatcher.state.zones.Placed s.fleet

lemma Stocked.fresh {settings : Settings} {router : Router} {pickupDuration dropoffDuration : Time} :
    (Service.fresh settings resolution router pickupDuration dropoffDuration).Stocked resolution where
  ready := .fresh
  filed := .empty
  placed := .empty

/-- A cycle goes on from where the index has been brought in line. -/
lemma Stocked.steps {now : Time} {final : Session ScheduledFleet} (h : s.Stocked resolution)
    (steps : Session.Steps now (s.dispatcher.synced now s.fleet) final) :
    final.state.zones.vehicles.Filed resolution ∧ final.state.zones.Placed final.fleet := by
  have first : Session.Step now (s.dispatcher.begin now s.fleet) (s.dispatcher.synced now s.fleet) := .sync
  exact ⟨Session.Steps.filed steps (first.filed h.filed), Session.Steps.placed steps (first.placed h.placed)⟩

lemma Stocked.act (h : s.Stocked resolution) : (s.act errand).Stocked resolution := by
  have ready : (s.act errand).Ready := h.ready.act
  cases errand with
  | submit => exact ⟨ready, h.filed, h.placed⟩
  | withdraw id now =>
    simp only [Service.act] at ready ⊢
    cases gone : s.dispatcher.withdraw id now with
    | none => exact h
    | some w =>
      rw [gone] at ready
      rw [Dispatcher.withdraw_eq h.ready.sound] at gone
      obtain ⟨request, _, rfl⟩ := Option.map_eq_some_iff.mp gone
      exact ⟨ready, h.filed, h.placed⟩
  | cycle ctx =>
    obtain ⟨filed, placed⟩ := h.steps (Dispatcher.synced_steps h.ready.sound)
    exact ⟨ready, filed, placed⟩
  | advance => exact ⟨ready, h.filed, h.placed.advance⟩
  | addVehicle id place serviceBegin serviceEnd =>
    simp only [Service.act] at ready ⊢
    cases added : s.fleet.addVehicle id place serviceBegin serviceEnd with
    | error => exact h
    | ok fleet =>
      rw [added] at ready
      exact ⟨ready, h.filed, h.placed.addVehicle added⟩

lemma Stocked.run (h : s.Stocked resolution) : (s.run errands).Stocked resolution := by
  induction errands generalizing s with
  | nil => exact h
  | cons errand rest ih => exact ih h.act

/-- Whatever a service has been asked to do before: when a cycle is about to make pairings, the indexed
vehicles without a confirmation are just those of the idle entries of its snapshot, in the same order. Each
of them is indexed at the place of its entry and listed in the cell of that place; there it will be when it
has done all it has to do, it is available at once, and the snapshot counts as many idle vehicles as there are
such entries. -/
theorem idle_supply (settings : Settings) (resolution : Resolution) (router : Router)
    (pickupDuration dropoffDuration : Time) (errands : List Errand) (now : Time) :
    let s := (fresh settings resolution router pickupDuration dropoffDuration).run errands
    let start := s.dispatcher.planned now s.fleet
    let view := s.dispatcher.view now s.fleet
    view.idle.map VehicleEntry.id = start.state.unbound ∧
    (∀ e ∈ view.idle, start.state.zones.vehicles.place? e.id = some e.place ∧
      e.id ∈ ZoneMap.keysIn start.state.zones.vehicles.buckets (Globe.cellOf resolution e.place.coord) ∧
      (∃ x, start.fleet.vehicle? e.id = some x ∧ x.finalPlace = e.place) ∧ e.availableAt = now) ∧
    view.idle.length = view.idleVehicles := by
  intro s start view
  have stocked : s.Stocked resolution := Stocked.fresh.run
  obtain ⟨filed, placed⟩ := stocked.steps (Dispatcher.planned_steps stocked.ready.sound)
  have inLine (v : VehicleId) : start.state.zones.vehicles.contains v = start.fleet.isIdle v now :=
    Dispatcher.contains_planned stocked.ready.sound stocked.ready.covered
  have ids : view.idle.map VehicleEntry.id = start.state.unbound := Snapshot.ids_idle_eq_unbound inLine
  refine ⟨ids, ?_, ?_⟩
  · intro e member
    obtain ⟨⟨x, found, place⟩, available⟩ := Snapshot.of_mem_idle member
    have indexed : start.state.zones.vehicles.place? e.id = some e.place := by
      have listed : e.id ∈ start.state.unbound := ids ▸ List.mem_map_of_mem member
      exact Snapshot.placed_of_mem_idle placed member (DispatchState.mem_unbound.mp listed).1
    exact ⟨indexed, filed.mem_keysIn.mpr ⟨_, indexed, rfl⟩, ⟨x, found, place⟩, available⟩
  · have count : view.idleVehicles = start.state.unbound.length := Snapshot.idleVehicles_take _ _ inLine
    rw [count, ← ids, List.length_map]

end Service

end RideDispatch

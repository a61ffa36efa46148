import RideDispatch.Proofs.Cycle
import RideDispatch.Proofs.Duty

/-!
# The index of idle vehicles

Between cycles the index may be out of date, but it knows only of vehicles of the fleet
(`Zones.Covered`). A cycle first brings it in line with the fleet. From then on every indexed
vehicle is idle, and every idle vehicle is indexed as long as no ride has been reported
(`Session.InLine`, `Session.Step.inLine`). So at the moment at which a cycle begins to make pairings just
the idle vehicles are indexed (`Dispatcher.contains_planned`).
-/

namespace RideDispatch

/-! ## Idle vehicles -/

/-- Where every task is over, so is the last one. -/
lemma Vehicle.busyUntil_le_of_isFree {x : Vehicle} {now : Time} (free : x.isFree now = true) :
    x.busyUntil ≤ now := by
  unfold busyUntil
  cases last : x.tasks.getLast? with
  | none => exact Time.le_iff.mpr (Nat.zero_le _)
  | some task =>
    have ended := List.all_eq_true.mp free task (List.mem_of_getLast? last)
    exact of_decide_eq_true ended

/-- An idle vehicle is available at once. -/
lemma Vehicle.availableAt_of_isFree {x : Vehicle} {now : Time} (serves : x.isOutOfService now = false)
    (free : x.isFree now = true) : x.availableAt now = now := by
  have busy := busyUntil_le_of_isFree free
  unfold isOutOfService at serves
  simp only [Time.lt_iff, Time.le_iff, decide_eq_false_iff_not, not_or] at serves busy
  apply Time.ext
  unfold availableAt
  rw [Time.toNat_max, Time.toNat_max]
  omega

/-- It still serves then. -/
lemma Vehicle.serves_of_isFree {x : Vehicle} {now : Time} (serves : x.isOutOfService now = false)
    (free : x.isFree now = true) : ¬ x.serviceEnd ≤ x.availableAt now := by
  rw [availableAt_of_isFree serves free]
  unfold isOutOfService at serves
  simp only [decide_eq_false_iff_not, not_or] at serves
  exact serves.2

namespace ScheduledFleet

variable {f f' : ScheduledFleet} {v id : VehicleId} {now : Time}

lemma mem_vehicleIds : v ∈ Fleet.vehicleIds f ↔ (f.vehicle? v).isSome = true := by
  rw [vehicle?, ← Table.contains_eq_isSome]
  exact Std.ExtTreeMap.mem_keys

lemma isIdle_iff : f.isIdle v now = true ↔
    ∃ x, f.vehicle? v = some x ∧ x.isOutOfService now = false ∧ x.isFree now = true := by
  unfold isIdle vehicle?
  cases f.vehicles[v]? with
  | none => exact iff_of_false Bool.false_ne_true nofun
  | some x => simp

lemma isSome_of_isIdle (idle : f.isIdle v now = true) : (f.vehicle? v).isSome = true := by
  obtain ⟨x, found, _⟩ := isIdle_iff.mp idle
  rw [found]
  rfl

lemma isOutOfService_of_found {x : Vehicle} (found : f.vehicle? v = some x) :
    f.isOutOfService v now = x.isOutOfService now := by
  unfold isOutOfService
  rw [show f.vehicles[v]? = some x from found]

lemma serves_of_isIdle (idle : f.isIdle v now = true) : f.isOutOfService v now = false := by
  obtain ⟨x, found, serves, _⟩ := isIdle_iff.mp idle
  rw [isOutOfService_of_found found]
  exact serves

lemma earliestIdleness_of_isIdle (idle : f.isIdle v now = true) :
    (f.earliestIdleness v now).isSome = true := by
  obtain ⟨x, found, serves, free⟩ := isIdle_iff.mp idle
  unfold earliestIdleness
  rw [show f.vehicles[v]? = some x from found]
  simp only
  rw [if_neg (Vehicle.serves_of_isFree serves free)]
  rfl

/-- Just the idle vehicles have a place in the index. -/
lemma isSome_idlePlace? : (Zones.idlePlace? f now v).isSome = f.isIdle v now := by
  show (if f.isIdle v now then (f.earliestIdleness v now).map Idleness.place else none).isSome = _
  cases idle : f.isIdle v now with
  | false => rfl
  | true => rw [if_pos rfl, Option.isSome_map, earliestIdleness_of_isIdle idle]

lemma vehicle?_commit {request : Request} {pickup : Route} (ne : id ≠ v)
    (h : f.commit id request pickup now = .ok f') : f'.vehicle? v = f.vehicle? v := by
  obtain ⟨x, occupied, start, _, _, _, _, rfl⟩ := commit_eq_ok h
  simp only [vehicle?, Table.getElem?_insert, if_neg ne]

/-- A commitment keeps the other vehicles as idle as they were. -/
lemma isIdle_commit {request : Request} {pickup : Route} {time : Time} (ne : id ≠ v)
    (h : f.commit id request pickup now = .ok f') : f'.isIdle v time = f.isIdle v time := by
  have same : f'.vehicles[v]? = f.vehicles[v]? := vehicle?_commit ne h
  unfold isIdle
  rw [same]

lemma isSome_commit {request : Request} {pickup : Route} (h : f.commit id request pickup now = .ok f')
    (known : (f.vehicle? v).isSome = true) : (f'.vehicle? v).isSome = true := by
  by_cases same : id = v
  · subst same
    obtain ⟨x, occupied, start, _, _, _, _, rfl⟩ := commit_eq_ok h
    simp only [vehicle?, Table.getElem?_insert]
    rfl
  · rw [vehicle?_commit same h]
    exact known

lemma isSome_advance (known : (f.vehicle? v).isSome = true) :
    ((f.advance id now).2.vehicle? v).isSome = true := by
  unfold advance
  split
  · exact known
  · simp only [vehicle?, Table.getElem?_insert]
    split
    · rfl
    · exact known

lemma isSome_addVehicle {place : Place} {serviceBegin serviceEnd : Time}
    (h : f.addVehicle id place serviceBegin serviceEnd = .ok f')
    (known : (f.vehicle? v).isSome = true) : (f'.vehicle? v).isSome = true := by
  obtain ⟨_, rfl⟩ := addVehicle_eq_ok h
  simp only [vehicle?, Table.getElem?_insert]
  split
  · rfl
  · exact known

end ScheduledFleet

/-- A snapshot lists vehicles in service, with the place and the time from which they are free. -/
lemma Snapshot.of_mem_vehicles {requests : List Request} {fleet : ScheduledFleet} {registry : Registry}
    {settings : Settings} {now : Time} {e : VehicleEntry}
    (member : e ∈ (take requests fleet registry settings now).vehicles) :
    ∃ x, fleet.vehicle? e.id = some x ∧ x.isOutOfService now = false ∧ e.idle = fleet.isIdle e.id now ∧
      e.place = x.finalPlace ∧ e.availableAt = x.availableAt now ∧ ¬ x.serviceEnd ≤ x.availableAt now := by
  obtain ⟨candidate, listed, reached⟩ := List.mem_filterMap.mp member
  obtain ⟨v, chosen, rfl⟩ := List.mem_map.mp listed
  have serves : fleet.isOutOfService v now = false := by
    have both := (List.mem_filter.mp chosen).2
    rw [Bool.and_eq_true, Bool.not_eq_true', Bool.not_eq_true'] at both
    exact both.2
  unfold reachable? at reached
  split at reached
  · cases reached
  · rename_i idleness found
    split at reached
    · cases reached
      replace found : fleet.earliestIdleness v now = some idleness := found
      unfold ScheduledFleet.earliestIdleness at found
      split at found
      · rename_i x known
        split at found
        · cases found
        · rename_i open_
          cases found
          rw [ScheduledFleet.isOutOfService_of_found known] at serves
          exact ⟨x, known, serves, rfl, rfl, rfl, open_⟩
      · cases found
    · cases reached

/-! ## Bringing the index in line -/

namespace Zones

/-- Only vehicles of the fleet are indexed. -/
def Covered (z : Zones) (fleet : ScheduledFleet) : Prop :=
  ∀ v, z.vehicles.contains v = true → (fleet.vehicle? v).isSome = true

variable {φ : Type} [Fleet φ] {fleet : φ} {now : Time} {v w : VehicleId}

/-- The requests of the index are left alone. -/
lemma requests_syncVehicles (z : Zones) (fleet : φ) (now : Time) :
    (z.syncVehicles fleet now).2.requests = z.requests := by
  unfold syncVehicles
  generalize Fleet.vehicleIds fleet = ids, (⟨0, 0⟩ : SyncCount) = count
  induction ids generalizing count z with
  | nil => rfl
  | cons id rest ih =>
    rw [List.foldl_cons]
    cases found : idlePlace? fleet now id with
    | none =>
      simp only [syncVehicle, found]
      exact ih (z.eraseVehicle id) _
    | some place =>
      simp only [syncVehicle, found]
      exact ih (z.addVehicle id place) _

/-- What holds of the index of vehicles is still so after it has been brought in line, if it stays so when an
idle vehicle is indexed at its place and when a vehicle is dropped. -/
lemma syncVehicles_induction (P : ZoneMap VehicleId → Prop) {z : Zones}
    (insert : ∀ m id place, idlePlace? fleet now id = some place → P m → P (m.insert id place))
    (erase : ∀ m id, P m → P (m.erase id)) (start : P z.vehicles) :
    P (z.syncVehicles fleet now).2.vehicles := by
  unfold syncVehicles
  generalize Fleet.vehicleIds fleet = ids, (⟨0, 0⟩ : SyncCount) = count
  induction ids generalizing count z with
  | nil => exact start
  | cons id rest ih =>
    rw [List.foldl_cons]
    cases found : idlePlace? fleet now id with
    | none =>
      simp only [syncVehicle, found]
      exact ih (erase _ id start) _
    | some place =>
      simp only [syncVehicle, found]
      exact ih (insert _ id place found start) _

lemma contains_syncVehicle {z : SyncCount × Zones} :
    (syncVehicle fleet now z w).2.vehicles.contains v =
      if w = v then (idlePlace? fleet now v).isSome else z.2.vehicles.contains v := by
  obtain ⟨count, z⟩ := z
  cases found : idlePlace? fleet now w with
  | some place =>
    simp only [syncVehicle, found]
    show (z.vehicles.insert w place).contains v = _
    rw [ZoneMap.contains_insert]
    by_cases same : w = v
    · subst same
      simp [found]
    · simp [same]
  | none =>
    simp only [syncVehicle, found]
    show (z.vehicles.erase w).contains v = _
    rw [ZoneMap.contains_erase]
    by_cases same : w = v
    · subst same
      simp [found]
    · simp [same]

lemma contains_foldl_syncVehicle {ids : List VehicleId} {z : SyncCount × Zones} :
    (ids.foldl (syncVehicle fleet now) z).2.vehicles.contains v =
      if v ∈ ids then (idlePlace? fleet now v).isSome else z.2.vehicles.contains v := by
  induction ids generalizing z with
  | nil => rfl
  | cons w rest ih =>
    rw [List.foldl_cons, ih, contains_syncVehicle]
    by_cases later : v ∈ rest
    · rw [if_pos later, if_pos (List.mem_cons_of_mem w later)]
    · rw [if_neg later]
      simp only [List.mem_cons, later, or_false, eq_comm]

end Zones

namespace Session

variable {s s' : Session ScheduledFleet} {now : Time} {v : VehicleId}

/-- Every indexed vehicle is idle, and without a ride so far every idle vehicle is indexed. -/
structure InLine (s : Session ScheduledFleet) (now : Time) : Prop where
  idle : ∀ v, s.state.zones.vehicles.contains v = true → s.fleet.isIdle v now = true
  indexed : s.report.committed = [] → ∀ v, s.fleet.isIdle v now = true →
    s.state.zones.vehicles.contains v = true

lemma InLine.covered (h : s.InLine now) : s.state.zones.Covered s.fleet := by
  intro v member
  exact ScheduledFleet.isSome_of_isIdle (h.idle v member)

lemma contains_syncVehicles (h : s.state.zones.Covered s.fleet) :
    (s.syncVehicles now).state.zones.vehicles.contains v = s.fleet.isIdle v now := by
  show (s.state.zones.syncVehicles s.fleet now).2.vehicles.contains v = _
  unfold Zones.syncVehicles
  rw [Zones.contains_foldl_syncVehicle, ScheduledFleet.isSome_idlePlace?]
  by_cases known : v ∈ Fleet.vehicleIds s.fleet
  · rw [if_pos known]
  · rw [if_neg known]
    -- a vehicle that is not part of the fleet is neither indexed nor idle
    rw [ScheduledFleet.mem_vehicleIds] at known
    have absent : s.state.zones.vehicles.contains v = false := by
      rw [← Bool.not_eq_true]
      exact fun member => known (h v member)
    have busy : s.fleet.isIdle v now = false := by
      rw [← Bool.not_eq_true]
      exact fun idle => known (ScheduledFleet.isSome_of_isIdle idle)
    rw [absent, busy]

lemma inLine_syncVehicles (h : s.state.zones.Covered s.fleet) : (s.syncVehicles now).InLine now where
  idle v member := by
    rw [contains_syncVehicles h] at member
    exact member
  indexed _ v idle := by
    rw [contains_syncVehicles h]
    exact idle

lemma contains_commitRide {c : Confirmation} {fleet : ScheduledFleet} :
    (s.commitRide c fleet).state.zones.vehicles.contains v =
      (!decide (c.vehicle = v) && s.state.zones.vehicles.contains v) :=
  ZoneMap.contains_erase

/-- Every step of a cycle keeps the index in line. -/
lemma Step.inLine (step : Step now s s') (h : s.InLine now) : s'.InLine now := by
  cases step with
  | sync => exact inLine_syncVehicles h.covered
  | attempts => exact ⟨h.idle, h.indexed⟩
  | tally same =>
    refine ⟨h.idle, ?_⟩
    intro none_
    exact h.indexed (same ▸ none_)
  | note => exact ⟨h.idle, h.indexed⟩
  | opens => exact ⟨h.idle, h.indexed⟩
  | @commits c fleet held complete outcome =>
    obtain ⟨_, _, request, _, _, committed⟩ := outcome_eq_ok outcome
    constructor
    · intro v member
      rw [contains_commitRide, Bool.and_eq_true, Bool.not_eq_true', decide_eq_false_iff_not] at member
      obtain ⟨other, member⟩ := member
      show fleet.isIdle v now = true
      rw [ScheduledFleet.isIdle_commit other committed]
      exact h.idle v member
    · intro none_
      exact absurd none_ (List.append_ne_nil_of_right_ne_nil _ (List.cons_ne_nil _ _))
  | drops => exact ⟨h.idle, h.indexed⟩

lemma Steps.inLine (steps : Steps now s s') (h : s.InLine now) : s'.InLine now := by
  induction steps with
  | refl => exact h
  | tail _ step ih => exact step.inLine ih

end Session

/-! ## Between cycles -/

namespace Dispatcher

open Session

variable {d : Dispatcher} {fleet : ScheduledFleet} {now : Time} {ctx : CycleContext} {v : VehicleId}

lemma synced_inLine (h : d.state.zones.Covered fleet) : (d.synced now fleet).InLine now :=
  inLine_syncVehicles (s := d.begin now fleet) h

/-- A cycle indexes only vehicles of the fleet. -/
lemma runCycle_covered (sound : d.state.Sound) (h : d.state.zones.Covered fleet) :
    (d.runCycle ctx fleet).dispatcher.state.zones.Covered (d.runCycle ctx fleet).fleet := by
  rw [runCycle_state, runCycle_fleet]
  exact InLine.covered (Steps.inLine (synced_steps sound) (synced_inLine h))

/-- When a cycle begins to make pairings, just the idle vehicles are indexed. -/
theorem contains_planned (sound : d.state.Sound) (h : d.state.zones.Covered fleet) :
    (d.planned now fleet).state.zones.vehicles.contains v = (d.planned now fleet).fleet.isIdle v now := by
  show (d.settle now fleet).state.zones.vehicles.contains v = (d.settle now fleet).fleet.isIdle v now
  have inLine : (d.consumed now fleet).InLine now :=
    Steps.inLine (consumed_steps sound) (synced_inLine h)
  rw [settle_eq]
  split
  · rename_i none_
    rw [Bool.eq_iff_iff]
    exact ⟨inLine.idle v, inLine.indexed (List.isEmpty_iff.mp none_) v⟩
  · exact contains_syncVehicles inLine.covered

lemma withdraw_covered (sound : d.state.Sound) (h : d.state.zones.Covered fleet) {id : RequestId}
    {w : Withdrawal} (gone : d.withdraw id now = some w) : w.dispatcher.state.zones.Covered fleet := by
  rw [withdraw_eq sound] at gone
  obtain ⟨request, _, rfl⟩ := Option.map_eq_some_iff.mp gone
  exact h

end Dispatcher

end RideDispatch

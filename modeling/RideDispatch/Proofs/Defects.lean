import RideDispatch.Proofs.Duty
import RideDispatch.Proofs.Finder
import RideDispatch.Proofs.Handshake
import RideDispatch.Proofs.Matching
import RideDispatch.Route.Table

/-!
# Cycles without defects

A pairing is a defect if its request or its vehicle has a confirmation already. No strategy makes one in a
sound state. The greedy passes offer only what is free at that moment. The assignment strategy makes all
its pairings before it opens the first: they are of free requests and vehicles, no two of them share one,
and opening a confirmation leaves the others free (`Batch.openAll_defect`). So a cycle over a fleet that
lists no vehicle twice always has a report (`Dispatcher.runCycle_report`), whatever the dispatcher has been
asked to do before (`Dispatcher.every_cycle_reports`).
-/

namespace RideDispatch

section Free

variable {φ : Type} [Fleet φ] {s s' : Session φ} {now : Time} {p q : Pairing}

/-- Neither the request nor the vehicle of a pairing has a confirmation. -/
structure Pairing.Free (p : Pairing) (r : Registry) : Prop where
  request : r.isWaitingRequest p.request = false
  vehicle : r.isWaitingVehicle p.vehicle = false

/-- Two pairings of different requests with different vehicles. -/
structure Pairing.Apart (p q : Pairing) : Prop where
  request : p.request ≠ q.request
  vehicle : p.vehicle ≠ q.vehicle

/-- A free pairing is not a defect. -/
lemma Session.openConfirmation_of_free (now : Time) (sound : s.state.Sound)
    (free : p.Free s.state.registry) :
    ∃ placement next, s.openConfirmation now p = .ok (placement, next) := by
  unfold openConfirmation
  cases queued : s.state.queue.get? p.request with
  | none => exact ⟨_, _, rfl⟩
  | some request =>
    have own : request.id = p.request := sound.queue _ _ queued
    obtain ⟨c, added⟩ := Registry.add_of_free p.pickup now (own ▸ free.request) free.vehicle
    simp only [added]
    exact ⟨_, _, rfl⟩

/-- A pairing leaves free what it does not share. -/
lemma Pairing.Free.openConfirmation {placement : Placement} (free : q.Free s.state.registry)
    (apart : p.Apart q) (sound : s.state.Sound) (sound' : s'.state.Sound)
    (h : s.openConfirmation now p = .ok (placement, s')) : q.Free s'.state.registry where
  request := by
    rw [← Bool.not_eq_true, sound'.registry.isWaitingRequest_iff]
    rintro ⟨c, held, own⟩
    rcases Session.holds_openConfirmation sound h held with ⟨new, _⟩ | before
    · exact apart.request (new.symm.trans own)
    · have waiting := sound.registry.isWaitingRequest_iff.mpr ⟨c, before, own⟩
      rw [free.request] at waiting
      cases waiting
  vehicle := by
    rw [← Bool.not_eq_true, sound'.registry.isWaitingVehicle_iff]
    rintro ⟨c, held, own⟩
    rcases Session.holds_openConfirmation sound h held with ⟨_, new, _⟩ | before
    · exact apart.vehicle (new.symm.trans own)
    · have waiting := sound.registry.isWaitingVehicle_iff.mpr ⟨c, before, own⟩
      rw [free.vehicle] at waiting
      cases waiting

end Free

/-! ## One by one -/

namespace Greedy

variable {φ : Type} {state : DispatchState} {limit : Nat} {now : Time} {router : Router}
variable {pairing : Pairing}

lemma free_of_mem_candidateVehicles {request : Request} {v : VehicleEntry}
    (h : v ∈ candidateVehicles state limit now request) :
    state.registry.isWaitingVehicle v.id = false ∧
      state.zones.vehicles.place? v.id = some v.place ∧ v.availableAt = now := by
  unfold candidateVehicles at h
  obtain ⟨id, near, entry⟩ := List.mem_filterMap.mp h
  obtain ⟨place, placed, rfl⟩ := Option.map_eq_some_iff.mp entry
  obtain ⟨_, free⟩ := ZoneMap.mem_nearest near
  simp only [Bool.not_eq_true'] at free
  exact ⟨free, placed, rfl⟩

lemma plannable_of_mem_candidateRequests (sound : state.Sound) {vehicle : VehicleEntry} {r : Request}
    (h : r ∈ candidateRequests state limit now vehicle) :
    state.isPlannable r.id now = true ∧ state.queue.get? r.id = some r := by
  unfold candidateRequests at h
  obtain ⟨id, near, queued⟩ := List.mem_filterMap.mp h
  obtain ⟨_, plannable⟩ := ZoneMap.mem_nearest near
  obtain rfl := sound.queue _ _ queued
  exact ⟨plannable, queued⟩

/-- The pairing that a plannable request takes is free. -/
lemma free_of_bestVehicle? {request : Request}
    (plannable : state.isPlannable request.id now = true)
    (best : bestVehicle? router request (candidateVehicles state limit now request) =
      some pairing) : pairing.Free state.registry := by
  obtain ⟨own, v, candidate, same, _⟩ := bestVehicle?_eq_some best
  exact ⟨own ▸ (DispatchState.isPlannable_iff.mp plannable).1,
    same ▸ (free_of_mem_candidateVehicles candidate).1⟩

/-- The pairing that a free vehicle takes is free. -/
lemma free_of_bestRequest? (sound : state.Sound) {vehicle : VehicleEntry}
    (free : state.registry.isWaitingVehicle vehicle.id = false)
    (best : bestRequest? router vehicle (candidateRequests state limit now vehicle) =
      some pairing) : pairing.Free state.registry := by
  obtain ⟨own, r, candidate, same, _⟩ := bestRequest?_eq_some best
  have plannable := (plannable_of_mem_candidateRequests sound candidate).1
  exact ⟨same ▸ (DispatchState.isPlannable_iff.mp plannable).1, own ▸ free⟩

variable [Fleet φ] {s : Session φ} {ctx : CycleContext}

lemma offerRequests_defect {ids : List RequestId} {idle : Nat} (sound : s.state.Sound) :
    (offerRequests ctx limit ids idle s).defect = none := by
  induction ids generalizing idle s with
  | nil => rfl
  | cons id rest ih =>
    unfold offerRequests
    split
    · exact ih sound
    · rename_i plannable
      split
      · exact ih sound
      · split
        · exact ih sound
        · rename_i request queued
          obtain rfl := sound.queue _ _ queued
          simp only
          split
          · exact ih sound
          · rename_i pairing best
            have free := free_of_bestVehicle? (by simpa using plannable) best
            obtain ⟨placement, next, made⟩ := Session.openConfirmation_of_free ctx.now
              (s := s.note _) sound free
            rw [made]
            exact ih (Session.Steps.sound (Session.openConfirmation_steps made) sound)

lemma offerVehicles_defect {vehicles : List VehicleEntry} (sound : s.state.Sound) :
    (offerVehicles ctx limit vehicles s).defect = none := by
  induction vehicles generalizing s with
  | nil => rfl
  | cons vehicle rest ih =>
    unfold offerVehicles
    split
    · rfl
    · split
      · exact ih sound
      · rename_i open_
        simp only [Bool.or_eq_true, not_or, Bool.not_eq_true] at open_
        simp only
        split
        · exact ih sound
        · rename_i pairing best
          have free := free_of_bestRequest? sound open_.1 best
          obtain ⟨placement, next, made⟩ := Session.openConfirmation_of_free ctx.now
            (s := s.note _) sound free
          rw [made]
          exact ih (Session.Steps.sound (Session.openConfirmation_steps made) sound)

lemma schedule_defect {settings : Settings} {planning : List RequestId} {snapshot : Snapshot}
    (sound : s.state.Sound) : (schedule settings ctx planning snapshot s).defect = none := by
  unfold schedule
  split
  · simp only [offerVehicles_defect sound]
  · exact offerRequests_defect sound

end Greedy

/-! ## All at once -/

namespace Batch

variable {state : DispatchState} {snapshot : Snapshot} {now : Time}
variable {requests : List Request} {vehicles : List VehicleEntry} {offers : List Offer}

lemma offer?_eq_some {settings : Settings} {router : Router} {c : Candidate} {o : Offer} :
    offer? settings router requests vehicles c = some o ↔
      ∃ request vehicle pickup, requests[c.request]? = some request ∧
        vehicles[c.vehicle]? = some vehicle ∧
        router.route? vehicle.place request.origin vehicle.availableAt = some pickup ∧
        o = ⟨c, pickup, cost settings.waitTimeWeight request pickup⟩ := by
  unfold offer?
  constructor
  · intro h
    split at h
    · rename_i request vehicle row column
      obtain ⟨pickup, route, rfl⟩ := Option.map_eq_some_iff.mp h
      exact ⟨request, vehicle, pickup, row, column, route, rfl⟩
    · cases h
  · rintro ⟨request, vehicle, pickup, row, column, route, rfl⟩
    simp only [row, column, route, Option.map_some]

/-- A pairing is made of a request, a vehicle and the offer for their numbers. -/
lemma pairing?_eq_some {pair : Nat × Nat} {p : Pairing}
    (h : pairing? requests vehicles offers pair = some p) :
    ∃ request vehicle offer, requests[pair.1]? = some request ∧ vehicles[pair.2]? = some vehicle ∧
      offer ∈ offers ∧ offer.candidate = ⟨pair.1, pair.2⟩ ∧ p = ⟨vehicle.id, request.id, offer.pickup⟩ := by
  unfold pairing? at h
  split at h
  · rename_i request vehicle offer row column found
    cases h
    have own : offer.candidate = ⟨pair.1, pair.2⟩ := by simpa using List.find?_some found
    exact ⟨request, vehicle, offer, row, column, List.mem_of_find?_eq_some found, own, rfl⟩
  · cases h

/-- Different places of a list without repetitions hold different things. -/
lemma ne_of_nodup {α κ : Type} {key : α → κ} {xs : List α} {i j : Nat} {x y : α}
    (distinct : (xs.map key).Nodup) (first : xs[i]? = some x) (second : xs[j]? = some y)
    (ne : i ≠ j) : key x ≠ key y := by
  intro same
  have bound : i < (xs.map key).length := by
    rw [List.length_map]
    exact (List.getElem?_eq_some_iff.mp first).1
  refine ne ((List.getElem?_inj bound distinct).mp ?_)
  rw [List.getElem?_map, List.getElem?_map, first, second, Option.map_some, Option.map_some, same]

section Apart

variable {pairs : List (Nat × Nat)}

/-- Pairs that share no row stand for pairings that share no request. -/
lemma pairings_requests (disjoint : pairs.Pairwise Matching.Apart)
    (distinct : (requests.map Request.id).Nodup) :
    (pairs.filterMap (pairing? requests vehicles offers)).Pairwise fun p q => p.request ≠ q.request := by
  rw [List.pairwise_filterMap]
  refine disjoint.imp ?_
  intro pair pair' apart p made p' made'
  obtain ⟨request, vehicle, _, row, _, _, _, rfl⟩ := pairing?_eq_some made
  obtain ⟨request', vehicle', _, row', _, _, _, rfl⟩ := pairing?_eq_some made'
  have ids : request.id ≠ request'.id := ne_of_nodup distinct row row' apart.1
  exact ids

/-- Pairs that share no column stand for pairings that share no vehicle. -/
lemma pairings_vehicles (disjoint : pairs.Pairwise Matching.Apart)
    (distinct : (vehicles.map VehicleEntry.id).Nodup) :
    (pairs.filterMap (pairing? requests vehicles offers)).Pairwise fun p q => p.vehicle ≠ q.vehicle := by
  rw [List.pairwise_filterMap]
  refine disjoint.imp ?_
  intro pair pair' apart p made p' made'
  obtain ⟨request, vehicle, _, _, column, _, _, rfl⟩ := pairing?_eq_some made
  obtain ⟨request', vehicle', _, _, column', _, _, rfl⟩ := pairing?_eq_some made'
  have ids : vehicle.id ≠ vehicle'.id := ne_of_nodup distinct column column' apart.2
  exact ids

lemma pairings_apart (disjoint : pairs.Pairwise Matching.Apart)
    (distinctRequests : (requests.map Request.id).Nodup)
    (distinctVehicles : (vehicles.map VehicleEntry.id).Nodup) :
    (pairs.filterMap (pairing? requests vehicles offers)).Pairwise Pairing.Apart :=
  ((pairings_requests disjoint distinctRequests).and (pairings_vehicles disjoint distinctVehicles)).imp
    fun ends => ⟨ends.1, ends.2⟩

end Apart

lemma nodup_plannableRequests (sound : state.Sound)
    (distinct : (snapshot.requests.map RequestEntry.id).Nodup) :
    ((plannableRequests state snapshot now).map Request.id).Nodup := by
  unfold plannableRequests
  unfold List.Nodup at *
  rw [List.pairwise_map] at *
  rw [List.pairwise_filterMap]
  refine (distinct.filter _).imp ?_
  intro e e' ne r queued r' queued'
  rw [sound.queue _ _ queued, sound.queue _ _ queued']
  exact ne

lemma queued_of_mem (sound : state.Sound) {r : Request}
    (h : r ∈ plannableRequests state snapshot now) : state.queue.get? r.id = some r := by
  unfold plannableRequests at h
  obtain ⟨e, _, queued⟩ := List.mem_filterMap.mp h
  rwa [sound.queue _ _ queued]

lemma plannable_of_mem (sound : state.Sound) {r : Request}
    (h : r ∈ plannableRequests state snapshot now) : state.isPlannable r.id now = true := by
  unfold plannableRequests at h
  obtain ⟨e, chosen, queued⟩ := List.mem_filterMap.mp h
  rw [sound.queue _ _ queued]
  exact (List.mem_filter.mp chosen).2

lemma nodup_freeVehicles (distinct : (snapshot.vehicles.map VehicleEntry.id).Nodup) :
    ((freeVehicles state snapshot).map VehicleEntry.id).Nodup := by
  unfold freeVehicles
  unfold List.Nodup at *
  rw [List.pairwise_map] at *
  exact distinct.filter _

/-- The pairings of plannable requests with free vehicles are free. -/
lemma free_of_mem (sound : state.Sound) {r : Request} {vehicle : VehicleEntry} {pickup : Route}
    (plannable : r ∈ plannableRequests state snapshot now) (free : vehicle ∈ freeVehicles state snapshot) :
    Pairing.Free ⟨vehicle.id, r.id, pickup⟩ state.registry := by
  have unbound := (List.mem_filter.mp free).2
  rw [Bool.not_eq_true'] at unbound
  exact ⟨(DispatchState.isPlannable_iff.mp (plannable_of_mem sound plannable)).1, unbound⟩

variable {φ : Type} [Fleet φ] {s : Session φ} {ctx : CycleContext}

/-- Free pairings that share nothing are opened, one after the other, without a defect. -/
lemma openAll_defect {pairings : List Pairing} (sound : s.state.Sound)
    (free : ∀ p ∈ pairings, p.Free s.state.registry) (apart : pairings.Pairwise Pairing.Apart) :
    (openAll now pairings s).defect = none := by
  induction pairings generalizing s with
  | nil => rfl
  | cons p rest ih =>
    obtain ⟨_, next, made⟩ := Session.openConfirmation_of_free now sound
      (free p List.mem_cons_self)
    obtain ⟨others, apart⟩ := List.pairwise_cons.mp apart
    have sound' := Session.Steps.sound (Session.openConfirmation_steps made) sound
    unfold openAll
    rw [made]
    refine ih sound' ?_ apart
    intro q member
    exact (free q (List.mem_cons_of_mem _ member)).openConfirmation (others q member) sound sound' made

lemma schedule_defect [Matching.Solver] [Matching.DistinctSolver] {settings : Settings} {resolution : Resolution}
    (sound : s.state.Sound)
    (distinctRequests : (snapshot.requests.map RequestEntry.id).Nodup)
    (distinctVehicles : (snapshot.vehicles.map VehicleEntry.id).Nodup) :
    (schedule settings resolution ctx snapshot s).defect = none := by
  unfold schedule
  simp only
  split
  · rfl
  · refine openAll_defect sound ?_ ?_
    · intro p member
      obtain ⟨pair, _, made⟩ := List.mem_filterMap.mp member
      obtain ⟨request, vehicle, _, row, column, _, _, rfl⟩ := pairing?_eq_some made
      exact free_of_mem sound (List.mem_of_getElem? row) (List.mem_of_getElem? column)
    · exact pairings_apart Matching.solve_disjoint (nodup_plannableRequests sound distinctRequests)
        (nodup_freeVehicles distinctVehicles)

end Batch

/-! ## Cycles -/

namespace Snapshot

variable {φ : Type} [Fleet φ] {fleet : φ} {registry : Registry} {settings : Settings} {now : Time}
variable {requests : List Request}

lemma nodup_requests (distinct : (requests.map Request.id).Nodup) :
    ((take requests fleet registry settings now).requests.map RequestEntry.id).Nodup := by
  unfold take requestEntries
  unfold List.Nodup at *
  simp only [List.pairwise_map] at *
  exact distinct.filter _

lemma nodup_vehicles (distinct : (Fleet.vehicleIds fleet).Nodup) :
    ((take requests fleet registry settings now).vehicles.map VehicleEntry.id).Nodup := by
  unfold take freeVehicles
  unfold List.Nodup at *
  simp only [List.pairwise_map, List.pairwise_filterMap]
  refine (distinct.filter _).imp ?_
  intro v v' ne entry found entry' found'
  have own : ∀ {candidate : VehicleId × Bool} {entry : VehicleEntry} {limit : Time},
      reachable? fleet now limit candidate = some entry → entry.id = candidate.1 := by
    intro candidate entry limit found
    unfold reachable? at found
    split at found
    · cases found
    · split at found
      · cases found
        rfl
      · cases found
  rw [own found, own found']
  exact ne

end Snapshot

namespace Dispatcher

variable {φ : Type} [Fleet φ] {d : Dispatcher} {ctx : CycleContext} {fleet : φ}

lemma planned_sound (now : Time) (fleet : φ) (h : d.state.Sound) : (d.planned now fleet).state.Sound :=
  Session.Steps.sound (planned_steps h) (synced_sound h)

/-- What a cycle sees lists no request twice. -/
lemma nodup_view_requests (now : Time) (fleet : φ) (h : d.state.Sound) :
    ((d.view now fleet).requests.map RequestEntry.id).Nodup := by
  have sound := planned_sound now fleet h
  apply Snapshot.nodup_requests
  unfold List.Nodup
  rw [List.pairwise_map, List.pairwise_filterMap]
  refine (RequestQueue.nodup_ids.filter _).imp ?_
  intro id id' ne r queued r' queued'
  rw [sound.queue _ _ queued, sound.queue _ _ queued']
  exact ne

lemma pass_defect [Matching.Solver] [Matching.DistinctSolver] (h : d.state.Sound)
    (distinct : ∀ fleet : φ, (Fleet.vehicleIds fleet).Nodup) :
    (d.pass ctx fleet).defect = none := by
  have sound := planned_sound ctx.now fleet h
  unfold pass
  split
  · rfl
  · unfold Session.schedule
    split
    · exact Greedy.schedule_defect sound
    · exact Batch.schedule_defect sound (nodup_view_requests ctx.now fleet h)
        (Snapshot.nodup_vehicles (distinct _))

/-- Over a fleet that lists no vehicle twice a cycle has a report. -/
theorem runCycle_report [Matching.Solver] [Matching.DistinctSolver] (ctx : CycleContext) (fleet : φ)
    (h : d.state.Sound) (distinct : ∀ fleet : φ, (Fleet.vehicleIds fleet).Nodup) :
    (d.runCycle ctx fleet).report = .ok (d.pass ctx fleet).session.report := by
  rw [runCycle_eq, pass_defect h distinct]

/-- In whatever order requests have been submitted and given up and cycles have been run, whatever fleet and
router each of them had, and by either strategy, whatever solver it asks that gives no column to two rows: the
next cycle pairs no request and no vehicle that is paired already, so it has a report. -/
theorem every_cycle_reports [Matching.Solver] [Matching.DistinctSolver] (settings : Settings)
    (resolution : Resolution) (calls : List (Call ScheduledFleet)) (ctx : CycleContext) (fleet : ScheduledFleet) :
    ∃ report, (((fresh settings resolution).serve calls).1.runCycle ctx fleet).report = .ok report := by
  have sound : ((fresh settings resolution).serve calls).1.state.Sound := serve_sound (.empty _ _)
  exact ⟨_, runCycle_report ctx fleet sound ScheduledFleet.nodup_vehicleIds⟩

/-- While the only driver is asked about one of two requests, the other one is planned. -/
theorem every_cycle_reports_askedDriver :
    let settings : Settings := { strategy := .assignment, confirmationDelaySecs := 10 }
    let router : Router := .ofTable [⟨⟨1⟩, ⟨2⟩, ⟨60000⟩⟩]
    let empty := ScheduledFleet.empty router ⟨120000⟩ ⟨60000⟩
    let fleet := (empty.addVehicle ⟨7⟩ (.onDiagonal 1) 0 .never).toOption.getD empty
    let calls : List (Call ScheduledFleet) :=
      [.submit (.immediate ⟨1⟩ ⟨11⟩ (.onDiagonal 1) (.onDiagonal 2) 0 none),
        .submit (.immediate ⟨2⟩ ⟨12⟩ (.onDiagonal 3) (.onDiagonal 4) 0 none), .cycle ⟨0, router⟩ fleet]
    let d := ((fresh settings 9).serve calls).1
    ∃ report, (d.runCycle ⟨⟨1000⟩, router⟩ fleet).report = .ok report ∧ d.state.registry.toList.length = 1 ∧
      report.planned = 1 ∧ report.unmatched = 1 := by
  intro settings router empty fleet calls d
  obtain ⟨report, made⟩ := every_cycle_reports settings 9 calls ⟨⟨1000⟩, router⟩ fleet
  have counts : (d.runCycle ⟨⟨1000⟩, router⟩ fleet).report.toOption.map (fun r => (r.planned, r.unmatched)) =
      some (1, 1) := by decide +kernel
  rw [show (d.runCycle ⟨⟨1000⟩, router⟩ fleet).report = .ok report from made] at counts
  obtain ⟨planned, unmatched⟩ := Prod.mk.inj (Option.some.inj counts)
  exact ⟨report, made, by decide +kernel, planned, unmatched⟩

end Dispatcher

end RideDispatch

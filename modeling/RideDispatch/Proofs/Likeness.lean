import RideDispatch.Proofs.Desk
import RideDispatch.Proofs.Tidy

/-!
# Cycles that come to the same

Two fleets, maybe of different kinds, are as good as each other for a cycle if they answer its questions
alike and if they stay so when both are given the same ride; a relation of fleets with this property is
`Fleet.Similar`. Two states of a dispatcher are as good as each other if they differ at most in how the index
gathers the requests of a cell (`DispatchState.Alike`). A cycle that begins with the one or with the other
gives the same report and tells the world the same, and leaves fleets and states of which the same is true:
each part of a cycle is shown to take sessions that are `Session.Alike` to such sessions, up to
`Dispatcher.runCycle_similar`, and desks that are `Desk.Similar` stay so and give the same replies
(`Desk.Similar.answer`).
-/

namespace RideDispatch

/-! ## Fleets that answer alike -/

/-- The same error, or values that are related. -/
inductive Matched {ε α β : Type} (R : α → β → Prop) : Except ε α → Except ε β → Prop
  | error (e : ε) : Matched R (.error e) (.error e)
  | ok {a : α} {b : β} :
    R a b →
    Matched R (.ok a) (.ok b)

/-- Fleets that are related answer alike at a moment, and stay related when both are given a ride. -/
structure Fleet.Similar {φ ψ : Type} [Fleet φ] [Fleet ψ] (now : Time) (R : φ → ψ → Prop) : Prop where
  vehicleIds : ∀ {f g}, R f g → Fleet.vehicleIds g = Fleet.vehicleIds f
  isIdle : ∀ {f g}, R f g → ∀ v, Fleet.isIdle g v now = Fleet.isIdle f v now
  isOutOfService : ∀ {f g}, R f g → ∀ v, Fleet.isOutOfService g v now = Fleet.isOutOfService f v now
  earliestIdleness : ∀ {f g}, R f g → ∀ v, Fleet.earliestIdleness g v now = Fleet.earliestIdleness f v now
  commit : ∀ {f g}, R f g → ∀ v request pickup,
    Matched R (Fleet.commit f v request pickup now) (Fleet.commit g v request pickup now)

lemma Fleet.similar_eq {φ : Type} [Fleet φ] (now : Time) : Similar now (Eq : φ → φ → Prop) where
  vehicleIds := by
    rintro f _ rfl
    rfl
  isIdle := by
    rintro f _ rfl v
    rfl
  isOutOfService := by
    rintro f _ rfl v
    rfl
  earliestIdleness := by
    rintro f _ rfl v
    rfl
  commit := by
    rintro f _ rfl v request pickup
    cases Fleet.commit f v request pickup now with
    | error e => exact .error e
    | ok f' => exact .ok rfl

/-! ## States in which the requests are gathered in another way -/

/-- The index with the requests gathered in another way. -/
def Zones.reindex (zones : Zones) (requests : ZoneMap RequestId) : Zones :=
  { zones with requests := requests }

def DispatchState.reindex (s : DispatchState) (requests : ZoneMap RequestId) : DispatchState :=
  { s with zones := s.zones.reindex requests }

/-- Two states that differ at most in how the requests are gathered. -/
def DispatchState.Alike (s s' : DispatchState) : Prop :=
  ∃ z, s.zones.requests.Alike z ∧ s' = s.reindex z

namespace DispatchState.Alike

variable {s s' : DispatchState}

/-- What does not look at the requests of the index is the same. -/
lemma same {α : Type} (h : s.Alike s') (f : DispatchState → α) (blind : ∀ s z, f (s.reindex z) = f s) :
    f s' = f s := by
  obtain ⟨z, _, rfl⟩ := h
  exact blind s z

/-- What does not change the requests of the index leaves two states alike. -/
lemma change (h : s.Alike s') (f : DispatchState → DispatchState)
    (blind : ∀ s z, f (s.reindex z) = (f s).reindex z)
    (keeps : ∀ s, (f s).zones.requests = s.zones.requests) : (f s).Alike (f s') := by
  obtain ⟨z, alike, rfl⟩ := h
  refine ⟨z, ?_, blind s z⟩
  rw [keeps s]
  exact alike

lemma queue (h : s.Alike s') : s'.queue = s.queue := h.same DispatchState.queue fun _ _ => rfl

lemma registry (h : s.Alike s') : s'.registry = s.registry := h.same DispatchState.registry fun _ _ => rfl

lemma withRegistry (h : s.Alike s') (registry : Registry) :
    { s with registry := registry }.Alike { s' with registry := registry } :=
  h.change (fun s => { s with registry := registry }) (fun _ _ => rfl) fun _ => rfl

end DispatchState.Alike

/-- Fleets that place the idle vehicles alike index them alike. -/
lemma Zones.syncVehicles_congr {φ ψ : Type} [Fleet φ] [Fleet ψ] {f : φ} {g : ψ} {now : Time} (zones : Zones)
    (requests : ZoneMap RequestId) (ids : Fleet.vehicleIds g = Fleet.vehicleIds f)
    (places : ∀ v, idlePlace? g now v = idlePlace? f now v) :
    ((zones.reindex requests).syncVehicles g now).2 = (zones.syncVehicles f now).2.reindex requests := by
  unfold syncVehicles
  rw [ids]
  generalize Fleet.vehicleIds f = ids, (⟨0, 0⟩ : SyncCount) = count
  induction ids generalizing count zones with
  | nil => rfl
  | cons id rest ih =>
    rw [List.foldl_cons, List.foldl_cons]
    cases found : idlePlace? f now id with
    | none =>
      simp only [syncVehicle, places, found]
      exact ih (zones.eraseVehicle id) _
    | some place =>
      simp only [syncVehicle, places, found]
      exact ih (zones.addVehicle id place) _

/-! ## Sessions -/

namespace Session

variable {φ ψ : Type} {R : φ → ψ → Prop} {s : Session φ} {s' : Session ψ}

/-- Two sessions with related fleets that differ in nothing else but in how the requests are gathered. -/
structure Alike (R : φ → ψ → Prop) (s : Session φ) (s' : Session ψ) : Prop where
  state : s.state.Alike s'.state
  fleet : R s.fleet s'.fleet
  events : s'.events = s.events
  report : s'.report = s.report
  astray : s'.astray = s.astray

/-- The same placement, and two sessions that are alike. -/
structure Together (R : φ → ψ → Prop) (r : Placement × Session φ) (r' : Placement × Session ψ) : Prop where
  placement : r'.1 = r.1
  session : Alike R r.2 r'.2

namespace Alike

section Parts

lemma withReport (h : Alike R s s') (report : CycleReport) :
    Alike R { s with report := report } { s' with report := report } :=
  { h with report := rfl }

lemma note (h : Alike R s s') (astray : Bool) : Alike R (s.note astray) (s'.note astray) :=
  { h with astray := congrArg (· || astray) h.astray }

lemma opened (h : Alike R s s') (event : ConfirmationEvent) (registry : Registry) :
    Alike R (s.opened event registry) (s'.opened event registry) where
  state := h.state.withRegistry registry
  fleet := h.fleet
  events := congrArg (· ++ [event]) h.events
  report := congrArg (fun r => { r with opened := r.opened + 1 }) h.report
  astray := h.astray

lemma close (h : Alike R s s') (now : Time) (c : Confirmation) :
    Alike R (s.close now c) (s'.close now c) where
  state := h.state.change (fun s => { s with registry := s.registry.unregister c }) (fun _ _ => rfl)
    fun _ => rfl
  fleet := h.fleet
  events := congrArg (· ++ [c.completedEvent now]) h.events
  report := h.report
  astray := h.astray

lemma commitRide {f : φ} {g : ψ} (h : Alike R s s') (c : Confirmation) (related : R f g) :
    Alike R (s.commitRide c f) (s'.commitRide c g) where
  state := by
    obtain ⟨z, alike, same⟩ := h.state
    refine ⟨_, alike.erase c.request, ?_⟩
    unfold Session.commitRide
    rw [same]
    rfl
  fleet := related
  events := h.events
  report := congrArg (·.addCommitted ⟨c.request, c.passenger, c.vehicle⟩) h.report
  astray := h.astray

end Parts

variable [Fleet φ] [Fleet ψ] {now : Time}

lemma outcome (similar : Fleet.Similar now R) (h : Alike R s s') (c : Confirmation) :
    Matched R (s.outcome now c) (s'.outcome now c) := by
  unfold Session.outcome
  rw [h.state.queue, similar.isOutOfService h.fleet]
  split
  · exact .error _
  · split
    · exact .error _
    · cases s.state.queue.get? c.request with
      | none => exact .error _
      | some request =>
        simp only
        split
        · exact .error _
        · have committed := similar.commit h.fleet c.vehicle request (c.pickup.retimed now)
          generalize Fleet.commit s.fleet _ _ _ _ = r, Fleet.commit s'.fleet _ _ _ _ = r' at committed
          cases committed with
          | error e => exact .error _
          | ok related => exact .ok related

lemma syncVehicles (similar : Fleet.Similar now R) (h : Alike R s s') :
    Alike R (s.syncVehicles now) (s'.syncVehicles now) where
  state := by
    obtain ⟨z, alike, same⟩ := h.state
    have places (v : VehicleId) : Zones.idlePlace? s'.fleet now v = Zones.idlePlace? s.fleet now v := by
      unfold Zones.idlePlace?
      rw [similar.isIdle h.fleet, similar.earliestIdleness h.fleet]
    refine ⟨z, ?_, ?_⟩
    · show (s.state.zones.syncVehicles s.fleet now).2.requests.Alike z
      rw [Zones.requests_syncVehicles]
      exact alike
    · unfold Session.syncVehicles
      rw [same]
      show { s.state with zones := ((s.state.zones.reindex z).syncVehicles s'.fleet now).2 } = _
      rw [s.state.zones.syncVehicles_congr z (similar.vehicleIds h.fleet) places]
      rfl
  fleet := h.fleet
  events := h.events
  report := h.report
  astray := h.astray

lemma consume (similar : Fleet.Similar now R) (h : Alike R s s') (id : ConfirmationId) :
    Together R (s.consume now id) (s'.consume now id) := by
  unfold Session.consume
  rw [h.state.registry]
  cases s.state.registry.get? id with
  | none => exact ⟨rfl, h⟩
  | some c =>
    have outcomes := h.outcome similar c
    simp only
    generalize s.outcome now c = r, s'.outcome now c = r' at outcomes
    cases outcomes with
    | error refusal =>
      have closed := (h.close now c).note refusal.astray
      simp only
      rw [closed.report]
      exact ⟨rfl, closed.withReport _⟩
    | ok related => exact ⟨rfl, (h.close now c).commitRide c related⟩

lemma consumeAll (similar : Fleet.Similar now R) (h : Alike R s s') (ids : List ConfirmationId) :
    Alike R (s.consumeAll now ids) (s'.consumeAll now ids) := by
  induction ids generalizing s s' with
  | nil => exact h
  | cons id rest ih => exact ih (h.consume similar id).session

lemma openConfirmation (similar : Fleet.Similar now R) (h : Alike R s s') (p : Pairing) :
    Matched (Together R) (s.openConfirmation now p) (s'.openConfirmation now p) := by
  unfold Session.openConfirmation
  rw [h.state.queue, h.state.registry, h.report]
  cases s.state.queue.get? p.request with
  | none => exact .ok ⟨rfl, h.withReport _⟩
  | some request =>
    simp only
    cases s.state.registry.add request p.vehicle p.pickup now with
    | error e => exact .error e
    | ok added =>
      obtain ⟨c, event, registry⟩ := added
      have opened := h.opened event registry
      apply Matched.ok
      split
      · exact opened.consume similar c.id
      · exact ⟨rfl, opened⟩

end Alike

end Session

/-! ## Passes -/

section Passes

variable {φ ψ : Type} {R : φ → ψ → Prop} {s : Session φ} {s' : Session ψ}

/-- Two passes that leave sessions that are alike, and the same defect. -/
structure PassResult.Alike (R : φ → ψ → Prop) (r : PassResult φ) (r' : PassResult ψ) : Prop where
  session : Session.Alike R r.session r'.session
  defect : r'.defect = r.defect

lemma Greedy.candidateRequests_alike {state state' : DispatchState} (h : state.Alike state') (limit : Nat)
    (now : Time) (vehicle : VehicleEntry) :
    candidateRequests state' limit now vehicle = candidateRequests state limit now vehicle := by
  obtain ⟨z, alike, rfl⟩ := h
  exact congrArg (List.filterMap state.queue.get?) alike.nearest

variable [Fleet φ] [Fleet ψ] {ctx : CycleContext}

namespace Greedy

lemma offerRequests_alike {limit idle : Nat} {ids : List RequestId} (similar : Fleet.Similar ctx.now R)
    (h : Session.Alike R s s') :
    PassResult.Alike R (offerRequests ctx limit ids idle s) (offerRequests ctx limit ids idle s') := by
  induction ids generalizing idle s s' with
  | nil => exact ⟨h, rfl⟩
  | cons id rest ih =>
    have plannable := h.state.same (·.isPlannable id ctx.now) fun _ _ => rfl
    have candidates (request : Request) :=
      h.state.same (fun s => candidateVehicles s limit ctx.now request) fun _ _ => rfl
    unfold offerRequests
    simp only [plannable, candidates, h.state.queue, h.report]
    split
    · exact ih h
    · split
      · exact ih (h.withReport _)
      · cases s.state.queue.get? id with
        | none => exact ih h
        | some request =>
          simp only
          generalize candidateVehicles s.state limit ctx.now request = near
          have noted := h.note (straysForRequest ctx.router request near)
          cases bestVehicle? ctx.router request near with
          | none =>
            simp only
            rw [noted.report]
            exact ih (noted.withReport _)
          | some p =>
            simp only
            have made := noted.openConfirmation similar p
            generalize (s.note _).openConfirmation ctx.now p = r,
              (s'.note _).openConfirmation ctx.now p = r' at made
            cases made with
            | error e => exact ⟨noted, rfl⟩
            | ok together =>
              simp only
              rw [noted.report, together.session.report]
              exact ih together.session

lemma offerVehicles_alike {limit : Nat} {vehicles : List VehicleEntry} (similar : Fleet.Similar ctx.now R)
    (h : Session.Alike R s s') :
    PassResult.Alike R (offerVehicles ctx limit vehicles s) (offerVehicles ctx limit vehicles s') := by
  induction vehicles generalizing s s' with
  | nil => exact ⟨h, rfl⟩
  | cons vehicle rest ih =>
    have indexed := h.state.same (·.zones.vehicles.contains vehicle.id) fun _ _ => rfl
    unfold offerVehicles
    simp only [indexed, candidateRequests_alike h.state, h.state.queue, h.state.registry]
    split
    · exact ⟨h, rfl⟩
    · split
      · exact ih h
      · generalize candidateRequests s.state limit ctx.now vehicle = near
        have noted := h.note (straysForVehicle ctx.router vehicle near)
        cases bestRequest? ctx.router vehicle near with
        | none => exact ih noted
        | some p =>
          simp only
          have made := noted.openConfirmation similar p
          generalize (s.note _).openConfirmation ctx.now p = r,
            (s'.note _).openConfirmation ctx.now p = r' at made
          cases made with
          | error e => exact ⟨noted, rfl⟩
          | ok together => exact ih together.session

lemma schedule_alike {settings : Settings} {planning : List RequestId} {view : Snapshot}
    (similar : Fleet.Similar ctx.now R) (h : Session.Alike R s s') :
    PassResult.Alike R (schedule settings ctx planning view s) (schedule settings ctx planning view s') := by
  unfold schedule
  split
  · have offered : PassResult.Alike R (offerVehicles ctx settings.nearestRequestsLimit view.idle s)
        (offerVehicles ctx settings.nearestRequestsLimit view.idle s') := offerVehicles_alike similar h
    generalize offerVehicles ctx settings.nearestRequestsLimit view.idle s = r,
      offerVehicles ctx settings.nearestRequestsLimit view.idle s' = r' at offered
    obtain ⟨left, defect⟩ := offered
    simp only
    rw [defect]
    cases broken : r.defect with
    | some e => exact ⟨left, defect⟩
    | none =>
      have count := left.state.same (countPlannable · ctx.now planning) fun _ _ => rfl
      simp only
      rw [count, left.report]
      exact ⟨left.withReport _, rfl⟩
  · exact offerRequests_alike similar h

end Greedy

namespace Batch

lemma openAll_alike {now : Time} {pairings : List Pairing} (similar : Fleet.Similar now R)
    (h : Session.Alike R s s') :
    PassResult.Alike R (openAll now pairings s) (openAll now pairings s') := by
  induction pairings generalizing s s' with
  | nil => exact ⟨h, rfl⟩
  | cons p rest ih =>
    unfold openAll
    have made := h.openConfirmation similar p
    generalize s.openConfirmation now p = r, s'.openConfirmation now p = r' at made
    cases made with
    | error e => exact ⟨h, rfl⟩
    | ok together => exact ih together.session

/-- Fleets that answer alike are summed up alike. -/
lemma strays_similar {now horizon : Time} {f : φ} {g : ψ} (similar : Fleet.Similar now R) (related : R f g)
    (registry : Registry) (router : Router) (unmatched : List Place) :
    FleetSummary.strays g registry router unmatched now horizon =
      FleetSummary.strays f registry router unmatched now horizon := by
  unfold FleetSummary.strays FleetSummary.activities
  rw [similar.vehicleIds related]
  have activity : FleetSummary.activity g registry now horizon =
      FleetSummary.activity f registry now horizon := by
    funext v
    unfold FleetSummary.activity
    rw [similar.isOutOfService related, similar.earliestIdleness related]
  rw [activity]

lemma schedule_alike [Matching.Solver] {settings : Settings} {resolution : Resolution} {view : Snapshot}
    (similar : Fleet.Similar ctx.now R) (h : Session.Alike R s s') :
    PassResult.Alike R (schedule settings resolution ctx view s) (schedule settings resolution ctx view s') := by
  have requests := h.state.same (plannableRequests · view ctx.now) fun _ _ => rfl
  have vehicles := h.state.same (freeVehicles · view) fun _ _ => rfl
  unfold schedule
  simp only [requests, vehicles, strays_similar similar h.fleet, h.state.registry, h.report]
  split
  · exact ⟨h, rfl⟩
  · exact openAll_alike similar ((h.note _).withReport _)

end Batch

lemma Session.schedule_alike {settings : Settings} {resolution : Resolution} {planning : List RequestId}
    {view : Snapshot} (similar : Fleet.Similar ctx.now R) (h : Session.Alike R s s') :
    PassResult.Alike R (s.schedule settings resolution ctx planning view)
      (s'.schedule settings resolution ctx planning view) := by
  unfold Session.schedule
  split
  · exact Greedy.schedule_alike similar h
  · exact Batch.schedule_alike similar h

/-- Fleets that answer alike are seen alike. -/
lemma Snapshot.take_similar {now : Time} {f : φ} {g : ψ} (similar : Fleet.Similar now R) (related : R f g)
    (requests : List Request) (registry : Registry) (settings : Settings) :
    take requests g registry settings now = take requests f registry settings now := by
  have free : freeVehicles g registry now = freeVehicles f registry now := by
    unfold freeVehicles
    simp only [similar.vehicleIds related, similar.isOutOfService related, similar.isIdle related]
  have reachable (limit : Time) : reachable? g now limit = reachable? f now limit := by
    funext candidate
    unfold reachable?
    rw [similar.earliestIdleness related]
  unfold take
  simp only [free, reachable]

end Passes

/-! ## Cycles -/

namespace Dispatcher

def reindex (d : Dispatcher) (requests : ZoneMap RequestId) : Dispatcher :=
  { d with state := d.state.reindex requests }

variable {φ ψ : Type} [Fleet φ] [Fleet ψ] {R : φ → ψ → Prop} {d : Dispatcher} {z : ZoneMap RequestId}
variable {now : Time} {f : φ} {g : ψ}

lemma settle_similar (similar : Fleet.Similar now R) (h : d.state.zones.requests.Alike z) (related : R f g) :
    Session.Alike R (d.settle now f) ((d.reindex z).settle now g) := by
  have begun : Session.Alike R (d.begin now f) ((d.reindex z).begin now g) :=
    ⟨⟨z, h, rfl⟩, related, rfl, rfl, rfl⟩
  have synced : Session.Alike R (d.synced now f) ((d.reindex z).synced now g) := begun.syncVehicles similar
  have consumed : Session.Alike R (d.consumed now f) ((d.reindex z).consumed now g) := by
    unfold consumed
    rw [synced.state.registry]
    exact synced.consumeAll similar _
  rw [settle_eq, settle_eq, consumed.report]
  split
  · exact consumed
  · exact consumed.syncVehicles similar

lemma plans_similar (similar : Fleet.Similar now R) (h : d.state.zones.requests.Alike z) (related : R f g) :
    (d.reindex z).plans now g = d.plans now f :=
  (settle_similar similar h related).state.same planning fun _ _ => rfl

lemma view_similar (similar : Fleet.Similar now R) (h : d.state.zones.requests.Alike z) (related : R f g) :
    (d.reindex z).view now g = d.view now f := by
  have settled : Session.Alike R (d.settle now f) ((d.reindex z).settle now g) :=
    settle_similar similar h related
  have queue : ((d.reindex z).planned now g).state.queue = (d.planned now f).state.queue :=
    settled.state.same (fun s => (planning s).foldl RequestQueue.countAttempt s.queue) fun _ _ => rfl
  unfold view
  simp only
  rw [plans_similar similar h related, queue]
  show Snapshot.take _ ((d.reindex z).settle now g).fleet ((d.reindex z).settle now g).state.registry _ _ = _
  rw [settled.state.registry, Snapshot.take_similar similar settled.fleet]
  rfl

lemma planned_similar (similar : Fleet.Similar now R) (h : d.state.zones.requests.Alike z) (related : R f g) :
    Session.Alike R (d.planned now f) ((d.reindex z).planned now g) := by
  have settled : Session.Alike R (d.settle now f) ((d.reindex z).settle now g) :=
    settle_similar similar h related
  have report : ((d.reindex z).planned now g).report = (d.planned now f).report := by
    show { ((d.reindex z).settle now g).report with
      planned := ((d.reindex z).plans now g).length
      horizon := some ((d.reindex z).view now g).horizon } = _
    rw [plans_similar similar h related, view_similar similar h related, settled.report]
    rfl
  refine ⟨?_, settled.fleet, settled.events, report, settled.astray⟩
  exact settled.state.change
    (fun s => { s with queue := (planning s).foldl RequestQueue.countAttempt s.queue }) (fun _ _ => rfl)
    fun _ => rfl

lemma pass_similar {ctx : CycleContext} (similar : Fleet.Similar ctx.now R)
    (h : d.state.zones.requests.Alike z) (related : R f g) :
    PassResult.Alike R (d.pass ctx f) ((d.reindex z).pass ctx g) := by
  unfold pass
  rw [plans_similar similar h related, view_similar similar h related]
  split
  · exact ⟨planned_similar similar h related, rfl⟩
  · exact Session.schedule_alike similar (planned_similar similar h related)

/-- A cycle gives the same report and tells the world the same, whichever of two related fleets it works for
and however the requests are gathered. -/
theorem runCycle_similar {ctx : CycleContext} (similar : Fleet.Similar ctx.now R)
    (h : d.state.zones.requests.Alike z) (related : R f g) :
    ∃ z' g', (d.runCycle ctx f).dispatcher.state.zones.requests.Alike z' ∧ R (d.runCycle ctx f).fleet g' ∧
      (d.reindex z).runCycle ctx g =
        ⟨(d.runCycle ctx f).dispatcher.reindex z', g', (d.runCycle ctx f).events,
          (d.runCycle ctx f).report, (d.runCycle ctx f).astray⟩ := by
  obtain ⟨⟨⟨z', alike, same⟩, fleets, events, report, astray⟩, defect⟩ :=
    pass_similar similar h related
  refine ⟨z', _, alike, fleets, ?_⟩
  rw [runCycle_eq, runCycle_eq, defect, same, events, report, astray]
  rfl

/-! ## Requests that are given up -/

lemma withdraw_reindex (d : Dispatcher) (z : ZoneMap RequestId) (id : RequestId) (now : Time) :
    (d.reindex z).withdraw id now = (d.withdraw id now).map fun w =>
      { w with dispatcher := w.dispatcher.reindex (z.erase id) } := by
  have same : (d.reindex z).state.queue = d.state.queue := rfl
  unfold withdraw
  rw [same]
  cases d.state.queue.get? id <;> rfl

lemma requests_withdraw {id : RequestId} {w : Withdrawal} (gone : d.withdraw id now = some w) :
    w.dispatcher.state.zones.requests = d.state.zones.requests.erase id := by
  unfold withdraw at gone
  split at gone
  · cases gone
  · cases gone
    rfl

end Dispatcher

/-! ## Desks -/

namespace Desk

variable {φ : Type} [Fleet φ] {R : φ → φ → Prop} {desk desk' : Desk φ}

/-- Two desks with related fleets that differ in nothing else but in how the requests are gathered. -/
structure Similar (R : φ → φ → Prop) (desk desk' : Desk φ) : Prop where
  dispatcher : ∃ z, desk.dispatcher.state.zones.requests.Alike z ∧
    desk'.dispatcher = desk.dispatcher.reindex z
  fleet : R desk.fleet desk'.fleet

/-- What does not part the fleets has the same reply, and leaves the desks similar. -/
lemma Similar.answer (h : Similar R desk desk') (order : Order φ)
    (cycles : ∀ ctx, order = .cycle ctx → Fleet.Similar ctx.now R)
    (changes : ∀ change, order = .fleet change → ∀ f g, R f g → R (change f) (change g)) :
    (desk'.answer order).2 = (desk.answer order).2 ∧
      Similar R (desk.answer order).1 (desk'.answer order).1 := by
  obtain ⟨⟨z, alike, same⟩, fleet⟩ := h
  obtain ⟨d', g⟩ := desk'
  subst same
  cases order with
  | submit request => exact ⟨rfl, ⟨_, alike.insert request.id request.origin, rfl⟩, fleet⟩
  | withdraw id now =>
    simp only [Desk.answer]
    rw [desk.dispatcher.withdraw_reindex z id now]
    cases gone : desk.dispatcher.withdraw id now with
    | none => exact ⟨rfl, ⟨z, alike, rfl⟩, fleet⟩
    | some w =>
      refine ⟨rfl, ⟨z.erase id, ?_, rfl⟩, fleet⟩
      show w.dispatcher.state.zones.requests.Alike (z.erase id)
      rw [Dispatcher.requests_withdraw gone]
      exact alike.erase id
  | cycle ctx =>
    obtain ⟨z', g', alike', fleets, same⟩ := Dispatcher.runCycle_similar (cycles ctx rfl) alike fleet
    simp only [Desk.answer]
    rw [same]
    exact ⟨rfl, ⟨z', alike', rfl⟩, fleets⟩
  | fleet change => exact ⟨rfl, ⟨z, alike, rfl⟩, changes change rfl _ _ fleet⟩

end Desk

end RideDispatch

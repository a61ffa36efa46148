import RideDispatch.Proofs.Buildable
import RideDispatch.Proofs.Defects
import RideDispatch.Proofs.Handshake
import RideDispatch.Proofs.Lifecycle

/-!
# The chronicle of a simulation

A simulation has a `Chronicle` if a balanced ledger tells the story of each request as it has been logged,
and if each expiry that is still to come is that of a request which was submitted. The simulation of a
scenario has one at its beginning, and each event keeps it, whatever the order in which events come
(`Chronicle.step?`). The main statement is `Simulation.lifecycle`.
-/

namespace RideDispatch

section Log

variable {log : Log} {id : RequestId}

lemma Log.rides_recordRide {e : RideEvent} : (log.recordRide e).rides = log.rides ++ [e] := by
  simp [recordRide, rides, LogEntry.ride?]

lemma Log.rides_recordRides {events : List RideEvent} :
    (events.foldl Log.recordRide log).rides = log.rides ++ events := by
  induction events generalizing log with
  | nil => exact (List.append_nil _).symm
  | cons e rest ih => rw [List.foldl_cons, ih, rides_recordRide, List.append_assoc]; rfl

lemma Log.rides_recordConfirmations {events : List ConfirmationEvent} :
    (log.recordConfirmations events).rides = log.rides := by
  unfold rides
  rw [toList_recordConfirmations, List.filterMap_append, List.filterMap_map]
  have none_ : events.filterMap (LogEntry.ride? ∘ .confirmation) = [] :=
    List.filterMap_eq_nil_iff.mpr fun _ _ => rfl
  rw [none_, List.append_nil]

/-- What tasks mark about a request is what the tasks for it mark. -/
lemma filter_filterMap_rideEvent? {ts : List TaskEnded} :
    (ts.filterMap TaskEnded.rideEvent?).filter (fun e => e.request = id) =
      (ts.filter fun t => t.request = id).filterMap TaskEnded.rideEvent? := by
  induction ts with
  | nil => rfl
  | cons t rest ih =>
    have own : ∀ e, t.rideEvent? = some e → e.request = t.request := by
      intro e marked
      obtain ⟨_, _, rfl⟩ := Option.map_eq_some_iff.mp marked
      rfl
    rw [List.filterMap_cons]
    cases marked : t.rideEvent? with
    | none =>
      simp only
      rw [ih, List.filter_cons]
      split
      · rw [List.filterMap_cons, marked]
      · rfl
    | some e =>
      simp only
      rw [List.filter_cons, List.filter_cons, own e marked, ih]
      split
      · rw [List.filterMap_cons, marked]
      · rfl

end Log

section Clock

variable {c : Clock} {e : ScheduledEvent} {time : Time} {kind : EventKind}
variable {subject : Option EventSubject}

/-- No expiry is scheduled unless the event is one. -/
lemma Clock.mem_schedule_of_expiry (other : kind ≠ .requestExpired)
    (member : e ∈ (c.schedule time kind subject).pending) (expiry : e.kind = .requestExpired) :
    e ∈ c.pending := by
  rcases mem_schedule.mp member with rfl | member
  · exact absurd expiry other
  · exact member

lemma max_add_self {t span : Time} : max (t + span) t = t + span := by
  apply Time.ext
  have bound := t.toNat_le
  rw [Time.toNat_max, Time.toNat_add]
  omega

end Clock

namespace Simulation

variable {sim sim' : Simulation} {l : Ledger} {id : RequestId}

/-- What has been logged about a request. -/
def told (sim : Simulation) (id : RequestId) : List RideEvent :=
  sim.log.rides.filter fun e => e.request = id

/-- The ledger tells what has happened in the simulation, and the expiries to come are right. -/
structure Chronicle (sim : Simulation) (l : Ledger) : Prop where
  balanced : l.Balanced sim.dispatcher.state sim.fleet
  once : (l.submitted.map Request.id).Nodup
  upcoming : ∀ id, sim.upcoming.contains id = true → id ∉ l.submitted.map Request.id
  searches : ∀ r ∈ l.submitted, r.Searches sim.maxSearch
  stories : ∀ id, Story sim.maxSearch l id (sim.told id)
  expiries : ∀ e ∈ sim.clock.pending, e.kind = .requestExpired → ∀ id, e.request? = some id →
    ∃ span r, sim.maxSearch = some span ∧ r ∈ l.submitted ∧ r.id = id ∧
      e.time = r.submittedAt + span

namespace Chronicle

/-- Another clock with no more expiries to come. -/
lemma withClock (h : sim.Chronicle l) (clock : Clock)
    (fewer : ∀ e ∈ clock.pending, e.kind = .requestExpired → e ∈ sim.clock.pending) :
    { sim with clock := clock }.Chronicle l where
  balanced := h.balanced
  once := h.once
  upcoming := h.upcoming
  searches := h.searches
  stories := h.stories
  expiries := fun e member expiry => h.expiries e (fewer e member expiry) expiry

lemma ensureCycle (h : sim.Chronicle l) : sim.ensureCycle.Chronicle l := by
  unfold Simulation.ensureCycle
  split
  · exact h
  · have asked := h.withClock
      (sim.clock.schedule (nextCycleTime sim.clock.now sim.dispatcher.reoptimizationStep) .dispatchCycle none)
      fun e member => Clock.mem_schedule_of_expiry (by decide) member
    exact { asked with }

lemma scheduleWakeups (h : sim.Chronicle l) : sim.scheduleWakeups.Chronicle l := by
  have same : { sim with fleet := sim.fleet.takeWakeups.2 }.Chronicle l :=
    { h with balanced := { h.balanced with } }
  refine same.withClock _ ?_
  have fewer : ∀ (wakeups : List (VehicleId × Time)) (clock : Clock),
      ∀ e ∈ (wakeups.foldl (fun clock wakeup =>
        clock.schedule wakeup.2 .vehicleTaskEnded (some (.vehicle wakeup.1))) clock).pending,
      e.kind = .requestExpired → e ∈ clock.pending := by
    intro wakeups
    induction wakeups with
    | nil => exact fun _ _ member _ => member
    | cons wakeup rest ih =>
      intro clock e member expiry
      exact Clock.mem_schedule_of_expiry (by decide) (ih _ e member expiry) expiry
  exact fewer _ _

/-- A queued request is not given up and has no ride. -/
lemma only_queued (h : sim.Chronicle l)
    (queued : sim.dispatcher.state.queue.contains id = true) :
    id ∉ l.withdrawn ∧ ∀ ride ∈ l.rides, ride.request ≠ id := by
  have placed := h.balanced.conserved id
  have bound := List.nodup_iff_count_le_one.mp h.once id
  apply Ledger.only_queued
  rw [placed, queued]
  exact bound

/-- The story of a request that is queued. -/
lemma story_of_queued (h : sim.Chronicle l)
    (queued : sim.dispatcher.state.queue.contains id = true) :
    ∃ r ∈ l.submitted, r.id = id ∧ sim.told id = [r.submittedEvent] := by
  obtain ⟨r, found⟩ := Option.isSome_iff_exists.mp
    (RequestQueue.contains_eq_isSome.symm.trans queued)
  obtain ⟨kept, free⟩ := h.only_queued queued
  exact (h.stories id).waiting_inv (h.balanced.mem_submitted found) kept free

/-- One more event about a request leaves the stories of the others as they are. -/
lemma stories_snoc {l' : Ledger} {e : RideEvent} (h : sim.Chronicle l)
    (own : Story sim.maxSearch l' e.request (sim.told e.request ++ [e]))
    (others : ∀ id, e.request ≠ id → l.Agrees l' id) (id : RequestId) :
    Story sim.maxSearch l' id ((sim.log.rides ++ [e]).filter fun e => e.request = id) := by
  rw [List.filter_append]
  by_cases same : e.request = id
  · subst same
    have kept : [e].filter (fun e' => e'.request = e.request) = [e] := by simp
    rw [kept]
    exact own
  · have left_out : [e].filter (fun e' => e'.request = id) = [] := by simp [same]
    rw [left_out, List.append_nil]
    exact (h.stories id).agrees (others id same)

/-- A vehicle retires tasks. -/
lemma endTasks (h : sim.Chronicle l) (vehicle : VehicleId) :
    (sim.endTasks vehicle).Chronicle
      { l with retired := l.retired ++ (sim.fleet.advance vehicle sim.clock.now).1 } where
  balanced := h.balanced.advance
  once := h.once
  upcoming := h.upcoming
  searches := h.searches
  expiries := h.expiries
  stories := by
    intro id
    unfold told Simulation.endTasks
    rw [Log.rides_recordRides, List.filter_append, filter_filterMap_rideEvent?]
    exact (h.stories id).retire h.balanced.advance h.once

lemma eq_of_id (h : sim.Chronicle l) {r r' : Request} (first : r ∈ l.submitted)
    (second : r' ∈ l.submitted) (same : r.id = r'.id) : r = r' :=
  List.inj_on_of_nodup_map h.once first second same

/-- The story of a request that is given up at its expiry. -/
lemma story_rejected (h : sim.Chronicle l) {span : Time} {r w : Request}
    (search : sim.maxSearch = some span) (submitted : r ∈ l.submitted)
    (queued : sim.dispatcher.state.queue.get? r.id = some w) :
    Story sim.maxSearch { l with withdrawn := l.withdrawn ++ [r.id] } r.id
      (sim.told r.id ++ [⟨r.submittedAt + span, .rejected, r.id, w.passenger, none⟩]) := by
  have contains : sim.dispatcher.state.queue.contains r.id = true := by
    rw [RequestQueue.contains_eq_isSome, queued]
    rfl
  obtain ⟨r', submitted', own, events⟩ := h.story_of_queued contains
  obtain rfl := h.eq_of_id submitted' submitted own
  have same : w.id = r'.id := h.balanced.sound.queue _ _ queued
  obtain ⟨r₀, submitted₀, n, rfl⟩ := h.balanced.queued _ _ queued
  obtain rfl := h.eq_of_id submitted₀ submitted same
  rw [events]
  exact .rejected submitted rfl (List.mem_append_right _ List.mem_cons_self) search

/-- A request that is still queued at its expiry is rejected. -/
lemma expire (h : sim.Chronicle l) {span : Time} {r : Request}
    (search : sim.maxSearch = some span) (submitted : r ∈ l.submitted)
    (due : sim.clock.now = r.submittedAt + span) : ∃ l', (sim.expire r.id).Chronicle l' := by
  cases gone : sim.dispatcher.withdraw r.id sim.clock.now with
  | none => exact ⟨l, (expire_of_none gone).symm ▸ h⟩
  | some w =>
    obtain ⟨queued, _⟩ := Dispatcher.withdraw_inv gone
    refine ⟨{ l with withdrawn := l.withdrawn ++ [r.id] }, ?_⟩
    rw [expire_of_some gone]
    refine { h with balanced := h.balanced.withdraw gone, stories := ?_ }
    intro id
    unfold told
    simp only
    rw [Log.rides_recordRide, Log.rides_recordConfirmations, due]
    refine h.stories_snoc (h.story_rejected search submitted queued) ?_ id
    intro id other
    refine ⟨fun _ _ => .rfl, ?_, fun _ _ => .rfl, rfl⟩
    rw [List.mem_append, List.mem_singleton]
    exact or_iff_left (Ne.symm other)

/-- The story of a request that comes in. -/
lemma story_submitted (h : sim.Chronicle l) {r : Request} (new : r.id ∉ l.submitted.map Request.id) :
    Story sim.maxSearch { l with submitted := l.submitted ++ [r] } r.id
      (sim.told r.id ++ [r.submittedEvent]) := by
  have placed := h.balanced.conserved r.id
  rw [List.count_eq_zero.mpr new] at placed
  obtain ⟨kept, free⟩ := Ledger.only_queued (l := l) (placed ▸ Nat.zero_le _)
  rw [(h.stories r.id).unheard_inv new]
  exact .waiting (List.mem_append_right _ List.mem_cons_self) rfl kept free

/-- A request comes in. -/
lemma takeIn (h : sim.Chronicle l) {r : Request} (waits : sim.upcoming.contains r.id = true)
    (searches : r.Searches sim.maxSearch) :
    { sim with
      upcoming := sim.upcoming.erase r.id
      dispatcher := sim.dispatcher.submit r
      log := sim.log.recordRide r.submittedEvent }.Chronicle
        { l with submitted := l.submitted ++ [r] } := by
  have new := h.upcoming r.id waits
  have ids : (l.submitted ++ [r]).map Request.id = l.submitted.map Request.id ++ [r.id] := by
    rw [List.map_append, List.map_singleton]
  constructor
  case balanced => exact h.balanced.submit new
  case once =>
    rw [ids]
    exact List.Nodup.append h.once (List.nodup_singleton _) (List.disjoint_singleton.mpr new)
  case upcoming =>
    intro id later
    rw [Table.contains_erase, Bool.and_eq_true, Bool.not_eq_true', decide_eq_false_iff_not] at later
    rw [ids, List.mem_append, List.mem_singleton]
    rintro (member | rfl)
    · exact h.upcoming id later.2 member
    · exact later.1 rfl
  case searches =>
    intro r' member
    rcases List.mem_append.mp member with member | last
    · exact h.searches r' member
    · rw [List.mem_singleton.mp last]
      exact searches
  case stories =>
    intro id
    unfold told
    rw [Log.rides_recordRide]
    refine h.stories_snoc (h.story_submitted new) ?_ id
    intro id other
    refine ⟨fun r' own => ?_, .rfl, fun _ _ => .rfl, rfl⟩
    rw [List.mem_append, List.mem_singleton]
    exact or_iff_left fun e => other (e ▸ own)
  case expiries =>
    intro e member expiry id own
    obtain ⟨span, r', search, submitted, due⟩ := h.expiries e member expiry id own
    exact ⟨span, r', search, List.mem_append_left _ submitted, due⟩

/-- The expiry of a request that has just come in. -/
lemma scheduleExpiry (h : sim.Chronicle l) {r : Request} (submitted : r ∈ l.submitted)
    (now_ : r.submittedAt = sim.clock.now) : (sim.scheduleExpiry r.id).Chronicle l := by
  unfold Simulation.scheduleExpiry
  split
  · exact h
  · rename_i span search
    refine { h with expiries := ?_ }
    intro e member expiry id own
    rcases Clock.mem_schedule.mp member with rfl | member
    · obtain rfl : r.id = id := Option.some.inj own
      refine ⟨span, r, search, submitted, rfl, ?_⟩
      rw [now_]
      exact max_add_self
    · exact h.expiries e member expiry id own

/-- A request comes in at most once. -/
lemma submit (h : sim.Chronicle l) (id : RequestId) : ∃ l', (sim.submit id).Chronicle l' := by
  unfold Simulation.submit
  cases found : sim.upcoming[id]? with
  | none => exact ⟨l, h⟩
  | some spec =>
    have waits : sim.upcoming.contains id = true := by
      rw [Table.contains_eq_isSome, found]
      rfl
    have taken := h.takeIn (r := .immediate id spec.passenger spec.origin spec.destination
      sim.clock.now sim.maxSearch) waits rfl
    exact ⟨_, (taken.scheduleExpiry (List.mem_append_right _ List.mem_cons_self) rfl).ensureCycle⟩

section Cycle

variable {ctx : CycleContext}

/-- What a cycle commits was queued before it. -/
lemma queued_of_committed (h : sim.Chronicle l) {ride : CommittedRide}
    (member : ride ∈ (sim.dispatcher.pass ctx sim.fleet).session.report.committed) :
    sim.dispatcher.state.queue.contains ride.request = true := by
  have before := h.balanced.conserved ride.request
  have after := (h.balanced.cycle ctx).conserved ride.request
  have bound := List.nodup_iff_count_le_one.mp h.once ride.request
  have served := List.count_pos_iff.mpr (List.mem_map_of_mem (f := CommittedRide.request) member)
  unfold Ledger.places at before after
  simp only [Ledger.ride, List.map_append, List.count_append] at after
  cases queued : sim.dispatcher.state.queue.contains ride.request with
  | true => rfl
  | false =>
    rw [queued, Bool.toNat_false] at before
    omega

/-- The story of a request that a cycle commits. -/
lemma story_committed (h : sim.Chronicle l) {ride : CommittedRide}
    (member : ride ∈ (sim.dispatcher.pass ctx sim.fleet).session.report.committed) :
    Story sim.maxSearch (l.ride (sim.dispatcher.pass ctx sim.fleet).session.report.committed)
      ride.request (sim.told ride.request ++
        [⟨ctx.now, .scheduled, ride.request, ride.passenger, some ride.vehicle⟩]) := by
  have queued := h.queued_of_committed member
  obtain ⟨r, submitted, own, events⟩ := h.story_of_queued queued
  have listed := List.mem_append_right l.rides member
  obtain ⟨r', submitted', own', passenger⟩ := (h.balanced.cycle ctx).carried ride listed
  obtain rfl := h.eq_of_id submitted' submitted (own'.trans own.symm)
  have start : (l.ride (sim.dispatcher.begin ctx.now sim.fleet).report.committed).Balanced
      (sim.dispatcher.begin ctx.now sim.fleet).state (sim.dispatcher.begin ctx.now sim.fleet).fleet := by
    simpa [Ledger.ride, Dispatcher.begin] using h.balanced.begin ctx.now
  rcases Session.Steps.timely (Dispatcher.pass_steps h.balanced.sound) start ride member with
    early | ⟨r'', submitted'', own'', open_⟩
  · cases early
  · obtain rfl := h.eq_of_id submitted'' submitted (own''.trans own.symm)
    -- nothing has been retired for the request so far
    have silent := h.balanced.retired_eq_nil (h.only_queued queued).2
    have events' : sim.told ride.request ++
        [⟨ctx.now, .scheduled, ride.request, ride.passenger, some ride.vehicle⟩] =
          r''.submittedEvent ::
            ⟨ctx.now, .scheduled, ride.request, ride.passenger, some ride.vehicle⟩ ::
            (l.retired.filter fun t => t.request = ride.request).filterMap
              TaskEnded.rideEvent? := by
      rw [events, silent]
      rfl
    rw [events']
    exact .scheduled submitted own listed rfl passenger open_

/-- The stories of all requests after a cycle. -/
lemma stories_committed (h : sim.Chronicle l) (ctx : CycleContext) (id : RequestId) :
    let rides := (sim.dispatcher.pass ctx sim.fleet).session.report.committed
    Story sim.maxSearch (l.ride rides) id (sim.told id ++
      (rides.filter fun ride => ride.request = id).map fun ride =>
        ⟨ctx.now, .scheduled, ride.request, ride.passenger, some ride.vehicle⟩) := by
  intro rides
  by_cases known : ∃ ride ∈ rides, ride.request = id
  · obtain ⟨ride, member, rfl⟩ := known
    have once := (h.balanced.cycle ctx).nodup_rides h.once
    rw [show (l.ride rides).rides = l.rides ++ rides from rfl, List.map_append] at once
    rw [Ledger.filter_eq_singleton (List.Nodup.of_append_right once) member]
    exact h.story_committed member
  · have none_ : rides.filter (fun ride => ride.request = id) = [] := by
      rw [List.filter_eq_nil_iff]
      intro ride member own
      exact known ⟨ride, member, of_decide_eq_true own⟩
    have others : l.Agrees (l.ride rides) id := by
      refine ⟨fun _ _ => .rfl, .rfl, fun ride own => ?_, rfl⟩
      show ride ∈ l.rides ++ rides ↔ ride ∈ l.rides
      rw [List.mem_append]
      exact or_iff_left fun member => known ⟨ride, member, own⟩
    rw [none_, List.map_nil, List.append_nil]
    exact (h.stories id).agrees others

/-- A cycle commits rides in time. -/
lemma runCycle (h : sim.Chronicle l) : ∃ l', sim.runCycle.Chronicle l' := by
  let ctx : CycleContext := ⟨sim.clock.now, sim.router⟩
  let rides := (sim.dispatcher.pass ctx sim.fleet).session.report.committed
  let result := sim.dispatcher.runCycle ctx sim.fleet
  have report : result.report = .ok (sim.dispatcher.pass ctx sim.fleet).session.report :=
    Dispatcher.runCycle_report ctx sim.fleet h.balanced.sound ScheduledFleet.nodup_vehicleIds
  have served : { sim with
      dispatcher := result.dispatcher
      fleet := result.fleet
      log := (scheduledEvents sim.clock.now result.report).foldl Log.recordRide
        (sim.log.recordConfirmations result.events)
      astray := sim.astray || result.astray }.Chronicle (l.ride rides) := by
    refine { h with balanced := h.balanced.cycle ctx, stories := ?_ }
    intro id
    unfold told
    simp only
    rw [Log.rides_recordRides, Log.rides_recordConfirmations, List.filter_append, report]
    unfold scheduledEvents
    simp only
    rw [List.filter_map]
    exact h.stories_committed ctx id
  refine ⟨l.ride rides, ?_⟩
  unfold Simulation.runCycle
  simp only
  split
  · exact served.scheduleWakeups.ensureCycle
  · exact served.scheduleWakeups

end Cycle

/-- Each event keeps a chronicle. -/
lemma handle {e : ScheduledEvent} (h : sim.Chronicle l) (now_ : sim.clock.now = e.time)
    (right : e.kind = .requestExpired → ∀ id, e.request? = some id →
      ∃ span r, sim.maxSearch = some span ∧ r ∈ l.submitted ∧ r.id = id ∧
        e.time = r.submittedAt + span) : ∃ l', (sim.handle e).Chronicle l' := by
  have happens := sim.happens e
  generalize sim.handle e = next at happens ⊢
  cases happens with
  | tasksEnd => exact ⟨_, h.endTasks _⟩
  | expires kind own =>
    obtain ⟨span, r, search, submitted, rfl, due⟩ := right kind _ own
    exact h.expire search submitted (now_.trans due)
  | cycle => exact h.runCycle
  | comesIn => exact h.submit _
  | nothing => exact ⟨l, h⟩

/-- Each step keeps a chronicle. -/
lemma step? {e : ScheduledEvent} (h : sim.Chronicle l) (step : sim.step? = some (e, sim')) :
    ∃ l', sim'.Chronicle l' := by
  obtain ⟨rest, pending, _, rfl⟩ := step?_eq_some step
  have taken : (sim.taking e rest).Chronicle l := by
    refine h.withClock _ ?_
    intro e' member _
    rw [pending]
    exact List.mem_cons_of_mem _ member
  refine taken.handle rfl ?_
  refine h.expiries e ?_
  rw [pending]
  exact List.mem_cons_self

end Chronicle

/-- The simulations that steps lead to. -/
abbrev Reaches : Simulation → Simulation → Prop :=
  Relation.ReflTransGen fun sim next => ∃ e, sim.step? = some (e, next)

/-- The simulation after its next event, or as it is where there is none. -/
def next (sim : Simulation) : Simulation := (sim.step?.map Prod.snd).getD sim

lemma step?_eq_next {e : ScheduledEvent} (due : sim.step?.map Prod.fst = some e) :
    sim.step? = some (e, sim.next) := by
  obtain ⟨taken, step, rfl⟩ := Option.map_eq_some_iff.mp due
  unfold next
  rw [step]
  rfl

lemma reaches_next : sim.Reaches sim.next := by
  cases due : sim.step? with
  | none =>
    unfold next
    rw [due]
    exact .refl
  | some taken =>
    refine .single ⟨taken.1, step?_eq_next ?_⟩
    rw [due]
    rfl

/-- No event changes how long passengers search or how the dispatcher is set. -/
lemma parameters_handle {e : ScheduledEvent} : (sim.handle e).maxSearch = sim.maxSearch ∧
    (sim.handle e).dispatcher.settings = sim.dispatcher.settings := by
  have happens := sim.happens e
  generalize sim.handle e = next at happens ⊢
  cases happens with
  | tasksEnd => exact ⟨rfl, rfl⟩
  | @expires id =>
    cases gone : sim.dispatcher.withdraw id sim.clock.now with
    | none => rw [expire_of_none gone]; exact ⟨rfl, rfl⟩
    | some w =>
      rw [expire_of_some gone]
      exact ⟨rfl, (Dispatcher.withdraw_inv gone).2⟩
  | cycle => rw [runCycle_eq]; exact ⟨rfl, rfl⟩
  | @comesIn id =>
    cases found : sim.upcoming[id]? with
    | none => rw [submit_of_absent found]; exact ⟨rfl, rfl⟩
    | some spec => rw [submit_eq found]; exact ⟨rfl, rfl⟩
  | nothing => exact ⟨rfl, rfl⟩

lemma maxSearch_step? {e : ScheduledEvent} (step : sim.step? = some (e, sim')) :
    sim'.maxSearch = sim.maxSearch := by
  obtain ⟨_, _, _, rfl⟩ := step?_eq_some step
  exact parameters_handle.1

lemma Reaches.ordered (reached : sim.Reaches sim') (h : sim.clock.Ordered) : sim'.clock.Ordered := by
  induction reached with
  | refl => exact h
  | tail _ step ih =>
    obtain ⟨e, step⟩ := step
    exact (ordered_step? ih step).1

lemma Reaches.chronicle (reached : sim.Reaches sim') (h : sim.Chronicle l) :
    (∃ l', sim'.Chronicle l') ∧ sim'.maxSearch = sim.maxSearch := by
  induction reached with
  | refl => exact ⟨⟨l, h⟩, rfl⟩
  | tail _ step ih =>
    obtain ⟨e, step⟩ := step
    obtain ⟨⟨l', h'⟩, same⟩ := ih
    exact ⟨h'.step? step, (maxSearch_step? step).trans same⟩

end Simulation

/-! ## The beginning -/

variable {network : Network} {vehicles : List VehicleSpec} {passengers : List PassengerSpec}
variable {params : ScenarioParams} {sim sim' : Simulation}

/-- Inversion for a scenario that can be built. -/
lemma Scenario.build_eq_ok (built : build network vehicles passengers params = .ok sim) :
    ∃ resolution fleet demand,
      vehicles.foldlM (addVehicle network) (.empty (WayTable.ofNetwork network).router
        (Time.ofSecs params.pickupDurationSecs) (Time.ofSecs params.dropoffDurationSecs)) = .ok fleet ∧
      passengers.zipIdx.foldlM (addPassenger network) ({} : Demand) = .ok demand ∧
      sim = {
        clock := demand.clock
        log := {}
        router := (WayTable.ofNetwork network).router
        fleet := fleet
        dispatcher := .fresh params.settings resolution
        upcoming := demand.upcoming
        maxSearch := params.maxSearchSecs.map Time.ofSecs
        endTime := params.endTime } := by
  unfold build at built
  obtain ⟨dispatcher, made, built⟩ := bind_eq_ok built
  obtain ⟨fleet, manned, built⟩ := bind_eq_ok built
  obtain ⟨demand, asked, built⟩ := bind_eq_ok built
  cases built
  obtain ⟨resolution, rfl⟩ : ∃ resolution, dispatcher = .fresh params.settings resolution := by
    cases settled : Dispatcher.ofSettings params.settings with
    | error => simp [settled, Except.mapError] at made
    | ok d =>
      rw [settled] at made
      cases made
      exact Dispatcher.ofSettings_eq_ok settled
  exact ⟨resolution, fleet, demand, manned, asked, rfl⟩

/-- A scenario begins at time zero with only submissions to come. -/
lemma Scenario.clock_of_build (built : build network vehicles passengers params = .ok sim) :
    sim.clock.now = 0 ∧ sim.clock.Ordered ∧ ∀ e ∈ sim.clock.pending, e.kind = .requestSubmitted := by
  obtain ⟨_, _, demand, _, asked, rfl⟩ := build_eq_ok built
  refine foldlM_keeps (P := fun demand : Demand => demand.clock.now = 0 ∧ demand.clock.Ordered ∧
    ∀ e ∈ demand.clock.pending, e.kind = .requestSubmitted) ?_ ?_ asked
  · rintro before spec after ⟨now_, ordered, calm⟩ added
    obtain ⟨origin, _, added⟩ := bind_eq_ok added
    obtain ⟨destination, _, added⟩ := bind_eq_ok added
    cases added
    refine ⟨now_, ordered.schedule, ?_⟩
    intro e member
    rcases Clock.mem_schedule.mp member with rfl | member
    · rfl
    · exact calm e member
  · exact ⟨rfl, ⟨.nil, List.forall_mem_nil _⟩, List.forall_mem_nil _⟩

/-- The simulation of a scenario begins with an empty ledger. -/
lemma Scenario.chronicle_build (built : build network vehicles passengers params = .ok sim) :
    sim.scheduleFirstCycle.Chronicle {} ∧
      sim.maxSearch = params.maxSearchSecs.map Time.ofSecs := by
  obtain ⟨_, _, calm⟩ := clock_of_build built
  obtain ⟨resolution, fleet, demand, manned, asked, rfl⟩ := build_eq_ok built
  have balanced : ({} : Ledger).Balanced
      (.empty params.settings.confirmationDelay resolution) fleet := by
    refine foldlM_keeps ?_ Ledger.Balanced.start manned
    intro f spec f' before added
    obtain ⟨place, _, added⟩ := bind_eq_ok added
    split at added
    · rename_i joined
      cases added
      exact before.addVehicle joined
    · cases added
  refine ⟨⟨balanced, .nil, fun _ _ => nofun, nofun, fun _ => .unheard nofun, ?_⟩, rfl⟩
  intro e member expiry
  have old := Clock.mem_schedule_of_expiry (by decide) member expiry
  rw [calm e old] at expiry
  cases expiry

/-- Whatever the scenario, at every moment of its simulation what has been logged about each request is a
lifecycle. -/
theorem Simulation.lifecycle (built : Scenario.build network vehicles passengers params = .ok sim)
    (reached : sim.scheduleFirstCycle.Reaches sim') (id : RequestId) :
    Lifecycle (params.maxSearchSecs.map Time.ofSecs)
      (sim'.log.rides.filter fun e => e.request = id) := by
  obtain ⟨h, search⟩ := Scenario.chronicle_build built
  obtain ⟨⟨l, h'⟩, same⟩ := reached.chronicle h
  rw [← search, ← show sim'.maxSearch = sim.maxSearch from same]
  exact (h'.stories id).isLifecycle h'.balanced (h'.balanced.nodup_rides h'.once) h'.searches

namespace SmallTown

/-- The town after a number of events. -/
def after : Nat → Simulation
  | 0 => opening.scheduleFirstCycle
  | events + 1 => (after events).next

lemma reaches_after (events : Nat) : opening.scheduleFirstCycle.Reaches (after events) := by
  induction events with
  | zero => exact .refl
  | succ events ih => exact ih.trans Simulation.reaches_next

lemma step?_after {events : Nat} {e : ScheduledEvent} (due : (after events).step?.map Prod.fst = some e) :
    (after events).step? = some (e, after (events + 1)) :=
  Simulation.step?_eq_next due

end SmallTown

/-- In the small town the first passenger rides and the second one is rejected; a town without vehicles in which
nobody asks has nothing to log. -/
theorem Simulation.lifecycle_smallTown :
    (SmallTown.network.Finite → ∃ sim sim',
      Scenario.build SmallTown.network SmallTown.vehicles SmallTown.passengers SmallTown.params = .ok sim ∧
        sim.scheduleFirstCycle.Reaches sim' ∧
        (sim'.told ⟨0⟩).map RideEvent.stage = [.submitted, .scheduled, .pickedUp, .droppedOff] ∧
        (sim'.told ⟨1⟩).map RideEvent.stage = [.submitted, .rejected] ∧
        Lifecycle (some (Time.ofSecs 5)) (sim'.log.rides.filter fun e => e.request = ⟨0⟩) ∧
        Lifecycle (some (Time.ofSecs 5)) (sim'.log.rides.filter fun e => e.request = ⟨1⟩)) ∧
      ∃ sim e sim', Scenario.build (Network.grid 2 2 {}) [] [] { maxSearchSecs := some 600 } = .ok sim ∧
        sim.scheduleFirstCycle.step? = some (e, sim') ∧ e.kind = .dispatchCycle ∧
        Lifecycle (some (Time.ofSecs 600)) (sim'.log.rides.filter fun e => e.request = ⟨1⟩) := by
  constructor
  · intro finite
    have built := SmallTown.build_eq finite
    have reached := SmallTown.reaches_after 15
    exact ⟨_, _, built, reached, by decide +kernel, by decide +kernel, Simulation.lifecycle built reached ⟨0⟩,
      Simulation.lifecycle built reached ⟨1⟩⟩
  · have built : Scenario.build (Network.grid 2 2 {}) [] [] { maxSearchSecs := some 600 } = .ok _ := rfl
    refine ⟨_, _, _, built, rfl, rfl, ?_⟩
    exact Simulation.lifecycle built (.single ⟨_, rfl⟩) ⟨1⟩

end RideDispatch

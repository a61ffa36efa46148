import RideDispatch.Proofs.Defects
import RideDispatch.Proofs.Handshake
import RideDispatch.Proofs.Ledger

/-!
# A service and its requests

A `Service` is a dispatcher with the fleet that it works for, together with all that has become known of
their work: the requests taken in, those handed back, the reports of the cycles and the tasks that the
vehicles have retired. Whatever the service is asked to do, and in whatever order, these are a balanced
ledger as long as no request is submitted twice (`Service.Balanced.run`). So no request is lost or served
twice, which is the main statement, `Service.one_place`.
-/

namespace RideDispatch

/-- A dispatcher with its fleet, and what has become known of their work. -/
structure Service where
  dispatcher : Dispatcher
  fleet : ScheduledFleet
  submitted : List Request := []
  /-- The requests that were handed back. -/
  withdrawn : List Request := []
  /-- What each cycle has given. -/
  reports : List (Except DispatchError CycleReport) := []
  retired : List TaskEnded := []

/-- What a service can be asked to do. -/
inductive Errand where
  | submit (request : Request)
  | withdraw (id : RequestId) (now : Time)
  | cycle (ctx : CycleContext)
  | advance (vehicle : VehicleId) (now : Time)
  | addVehicle (vehicle : VehicleId) (place : Place) (serviceBegin serviceEnd : Time)

/-- The identity of a request that is submitted. -/
def Errand.submits? : Errand → Option RequestId
  | submit request => some request.id
  | _ => none

/-- The rides of a cycle; none if it has no report. -/
def reportedRides : Except DispatchError CycleReport → List CommittedRide
  | .ok report => report.committed
  | .error _ => []

namespace Service

/-- A service that knows of no request and has no vehicle yet. -/
def fresh (settings : Settings) (resolution : Resolution) (router : Router)
    (pickupDuration dropoffDuration : Time) : Service where
  dispatcher := .fresh settings resolution
  fleet := .empty router pickupDuration dropoffDuration

/-- The service after an errand. What cannot be done leaves it as it is. -/
def act (s : Service) : Errand → Service
  | .submit request =>
    { s with
      dispatcher := s.dispatcher.submit request
      submitted := s.submitted ++ [request] }
  | .withdraw id now =>
    match s.dispatcher.withdraw id now with
    | none => s
    | some w => { s with dispatcher := w.dispatcher, withdrawn := s.withdrawn ++ [w.request] }
  | .cycle ctx =>
    let result := s.dispatcher.runCycle ctx s.fleet
    { s with
      dispatcher := result.dispatcher
      fleet := result.fleet
      reports := s.reports ++ [result.report] }
  | .advance vehicle now =>
    let (ended, fleet) := s.fleet.advance vehicle now
    { s with fleet := fleet, retired := s.retired ++ ended }
  | .addVehicle vehicle place serviceBegin serviceEnd =>
    match s.fleet.addVehicle vehicle place serviceBegin serviceEnd with
    | .error _ => s
    | .ok fleet => { s with fleet := fleet }

/-- The service after several errands. -/
def run (s : Service) (errands : List Errand) : Service := errands.foldl act s

/-- The rides that have been reported. -/
def committed (s : Service) : List CommittedRide := s.reports.flatMap reportedRides

/-- The ledger of what has become known. -/
def ledger (s : Service) : Ledger where
  submitted := s.submitted
  withdrawn := s.withdrawn.map Request.id
  rides := s.committed
  retired := s.retired

/-- The duties that a vehicle has been given, those retired first. -/
def given (s : Service) (v : VehicleId) : List Duty := s.ledger.given s.fleet v

/-- In how many places a request is: in the queue, handed back, or a reported ride. -/
def places (s : Service) (id : RequestId) : Nat :=
  (s.dispatcher.state.queue.contains id).toNat + (s.withdrawn.map Request.id).count id +
    (s.committed.map CommittedRide.request).count id

/-- What has become known of the work is right, and every cycle has a report. -/
structure Balanced (s : Service) : Prop where
  ledger : s.ledger.Balanced s.dispatcher.state s.fleet
  reported : ∀ report ∈ s.reports, ∃ r, report = .ok r

variable {s : Service} {errand : Errand} {errands : List Errand}

lemma act_submitted : (s.act errand).submitted.map Request.id =
    s.submitted.map Request.id ++ errand.submits?.toList := by
  cases errand with
  | submit request => simp [act, Errand.submits?]
  | withdraw id now =>
    simp only [act]
    split <;> simp [Errand.submits?]
  | cycle ctx => simp [act, Errand.submits?]
  | advance v now => simp [act, Errand.submits?]
  | addVehicle =>
    simp only [act]
    split <;> simp [Errand.submits?]

/-- Every errand keeps the ledger balanced, unless it submits a request again. -/
lemma Balanced.act (h : s.Balanced) (new : ∀ id, errand.submits? = some id →
    id ∉ s.submitted.map Request.id) : (s.act errand).Balanced := by
  cases errand with
  | submit request => exact ⟨h.ledger.submit (new _ rfl), h.reported⟩
  | withdraw id now =>
    simp only [Service.act]
    cases gone : s.dispatcher.withdraw id now with
    | none => exact h
    | some w =>
      have own : w.request.id = id := by
        rw [Dispatcher.withdraw_eq h.ledger.sound] at gone
        obtain ⟨request, found, rfl⟩ := Option.map_eq_some_iff.mp gone
        exact h.ledger.sound.queue _ _ found
      refine ⟨?_, h.reported⟩
      simpa [Service.ledger, committed, own] using h.ledger.withdraw gone
  | cycle ctx =>
    have report := Dispatcher.runCycle_report ctx s.fleet h.ledger.sound
      ScheduledFleet.nodup_vehicleIds
    constructor
    · have balanced := h.ledger.cycle ctx
      have rides : (s.act (.cycle ctx)).committed =
          s.committed ++ (s.dispatcher.pass ctx s.fleet).session.report.committed := by
        simp [Service.act, committed, report, reportedRides]
      show Ledger.Balanced { s.ledger with rides := _ } _ _
      rw [rides]
      exact balanced
    · intro answer member
      rcases List.mem_append.mp member with member | last
      · exact h.reported answer member
      · rw [List.mem_singleton.mp last]
        exact ⟨_, report⟩
  | advance v now => exact ⟨h.ledger.advance, h.reported⟩
  | addVehicle v place serviceBegin serviceEnd =>
    simp only [Service.act]
    cases added : s.fleet.addVehicle v place serviceBegin serviceEnd with
    | error => exact h
    | ok fleet => exact ⟨h.ledger.addVehicle added, h.reported⟩

/-- A run of errands that submits each request once keeps the ledger balanced. -/
lemma Balanced.run (h : s.Balanced)
    (once : (s.submitted.map Request.id ++ errands.filterMap Errand.submits?).Nodup) :
    (s.run errands).Balanced ∧ (s.run errands).submitted.map Request.id =
      s.submitted.map Request.id ++ errands.filterMap Errand.submits? := by
  induction errands generalizing s with
  | nil => exact ⟨h, (List.append_nil _).symm⟩
  | cons errand rest ih =>
    have split_ : s.submitted.map Request.id ++ (errand :: rest).filterMap Errand.submits? =
        (s.act errand).submitted.map Request.id ++ rest.filterMap Errand.submits? := by
      rw [act_submitted, List.append_assoc]
      cases found : errand.submits? <;> simp [found]
    rw [split_] at once ⊢
    refine ih (h.act ?_) once
    intro id submits member
    rw [act_submitted, submits] at once
    exact List.disjoint_of_nodup_append (List.Nodup.of_append_left once) member
      List.mem_cons_self

lemma Balanced.fresh {settings : Settings} {resolution : Resolution} {router : Router}
    {pickupDuration dropoffDuration : Time} :
    (Service.fresh settings resolution router pickupDuration dropoffDuration).Balanced :=
  ⟨.start, nofun⟩

lemma Balanced.places_eq (h : s.Balanced) (id : RequestId) :
    s.places id = (s.submitted.map Request.id).count id :=
  h.ledger.conserved id

lemma mem_committed_act {ride : CommittedRide} (member : ride ∈ s.committed) :
    ride ∈ (s.act errand).committed := by
  cases errand with
  | submit request => exact member
  | withdraw id now =>
    simp only [act]
    split <;> exact member
  | cycle ctx =>
    unfold committed act
    rw [List.flatMap_append]
    exact List.mem_append_left _ member
  | advance v now => exact member
  | addVehicle =>
    simp only [act]
    split <;> exact member

lemma mem_committed_run {ride : CommittedRide} (member : ride ∈ s.committed) :
    ride ∈ (s.run errands).committed := by
  induction errands generalizing s with
  | nil => exact member
  | cons errand rest ih => exact ih (mem_committed_act member)

/-- What is a ride is not queued. -/
lemma Balanced.not_queued (h : s.Balanced) (once : (s.submitted.map Request.id).Nodup)
    {ride : CommittedRide} (member : ride ∈ s.committed) :
    s.dispatcher.state.queue.contains ride.request = false := by
  have placed := h.places_eq ride.request
  have bound := List.nodup_iff_count_le_one.mp once ride.request
  have served := List.count_pos_iff.mpr (List.mem_map_of_mem (f := CommittedRide.request) member)
  unfold places at placed
  rw [← Bool.toNat_eq_zero]
  omega

/-- A service that is asked for each request once, in whatever order errands come, gives a report of
every cycle. Each request that was submitted is in just one place: in the queue, handed back, or one ride
of one report; other requests are in none. A request that is served is not queued again. Its vehicle has
been given the four duties of its ride, in order, and no other vehicle has been given a duty for it; for
a request that is not served nobody has been given any. -/
theorem one_place (settings : Settings) (resolution : Resolution) (router : Router)
    (pickupDuration dropoffDuration : Time) (errands : List Errand)
    (once : (errands.filterMap Errand.submits?).Nodup) :
    let s := (fresh settings resolution router pickupDuration dropoffDuration).run errands
    (∀ report ∈ s.reports, ∃ r, report = .ok r) ∧
    (∀ id, s.places id = if id ∈ errands.filterMap Errand.submits? then 1 else 0) ∧
    (∀ earlier later, errands = earlier ++ later →
      ∀ ride ∈ ((fresh settings resolution router pickupDuration dropoffDuration).run
        earlier).committed, s.dispatcher.state.queue.contains ride.request = false) ∧
    (∀ ride ∈ s.committed, ∀ v,
      (s.given v).filter (fun duty => duty.request = ride.request) =
        if ride.vehicle = v then ride.duties else []) ∧
    ∀ id, (∀ ride ∈ s.committed, ride.request ≠ id) →
      ∀ v, (s.given v).filter (fun duty => duty.request = id) = [] := by
  intro s
  obtain ⟨balanced, submitted⟩ : s.Balanced ∧
      s.submitted.map Request.id = errands.filterMap Errand.submits? := Balanced.fresh.run once
  rw [← submitted] at once ⊢
  refine ⟨balanced.reported, ?_, ?_, ?_, ?_⟩
  · intro id
    rw [balanced.places_eq, once.count]
  · rintro earlier later rfl ride member
    refine balanced.not_queued once ?_
    rw [show s = ((fresh settings resolution router pickupDuration dropoffDuration).run
      earlier).run later from List.foldl_append]
    exact mem_committed_run member
  · intro ride member v
    rw [given, balanced.ledger.work]
    exact Ledger.filter_owed_of_mem (balanced.ledger.nodup_rides once) member
  · intro id absent v
    rw [given, balanced.ledger.work]
    exact Ledger.filter_owed_of_absent absent

/-- A router that needs a second for every way. -/
def steadyRouter : Router where
  route? _ _ departure := some ⟨departure, ⟨1000⟩, 0, []⟩

/-- Two requests for one vehicle: the first is served, the second is given up. -/
def twoRequests : List Errand :=
  [.addVehicle ⟨7⟩ (.onDiagonal 1) 0 .never,
    .submit (.immediate ⟨1⟩ ⟨11⟩ (.onDiagonal 2) (.onDiagonal 3) 0 none),
    .submit (.immediate ⟨2⟩ ⟨12⟩ (.onDiagonal 4) (.onDiagonal 5) 0 none),
    .cycle ⟨0, steadyRouter⟩,
    .withdraw ⟨2⟩ ⟨500⟩,
    .advance ⟨7⟩ ⟨1500⟩]

theorem one_place_twoRequests :
    let s := (fresh {} 9 steadyRouter ⟨120⟩ ⟨60⟩).run twoRequests
    (twoRequests.filterMap Errand.submits?).Nodup ∧
      s.committed = [⟨⟨1⟩, ⟨11⟩, ⟨7⟩⟩] ∧ s.withdrawn.map Request.id = [⟨2⟩] ∧
      s.places ⟨1⟩ = 1 ∧ s.places ⟨2⟩ = 1 ∧
      (s.given ⟨7⟩).filter (fun duty => duty.request = ⟨1⟩) = rideDuties ⟨1⟩ ⟨11⟩ := by
  intro s
  have once : (twoRequests.filterMap Errand.submits?).Nodup := by decide
  obtain ⟨_, places, _, given, _⟩ := one_place {} 9 steadyRouter ⟨120⟩ ⟨60⟩ twoRequests once
  have committed : s.committed = [⟨⟨1⟩, ⟨11⟩, ⟨7⟩⟩] := by rfl
  have served : ⟨⟨1⟩, ⟨11⟩, ⟨7⟩⟩ ∈ s.committed := by
    rw [committed]
    exact List.mem_singleton_self _
  exact ⟨once, committed, by rfl, places ⟨1⟩, places ⟨2⟩, given _ served ⟨7⟩⟩

end Service

end RideDispatch

import RideDispatch.Proofs.Ledger
import RideDispatch.Simulation

/-!
# The life of a ride

`Lifecycle` says what passengers can rely on: what is logged about a request is that it is submitted and
then rejected, or that it is submitted, scheduled, picked up and dropped off, as far as it has come, for one
passenger and by one vehicle, scheduled before its deadline and rejected at its deadline.

`Story` says how that comes about: each way in which a ledger can account for a request goes with what has
been logged about it so far. A story by a balanced ledger is a lifecycle (`Story.isLifecycle`).
-/

namespace RideDispatch

/-- What is logged about a request whose passenger searches for a while. -/
structure Lifecycle (maxSearch : Option Time) (events : List RideEvent) : Prop where
  order : events.map RideEvent.stage <+: [.submitted, .rejected] ∨
    events.map RideEvent.stage <+: [.submitted, .scheduled, .pickedUp, .droppedOff]
  passenger : ∃ passenger, ∀ e ∈ events, e.passenger = passenger
  vehicle : ∃ vehicle, ∀ e ∈ events,
    e.stage = .scheduled ∨ e.stage = .pickedUp ∨ e.stage = .droppedOff → e.vehicle = some vehicle
  /-- A deadline that is a moment is kept. -/
  deadline : ∀ span, maxSearch = some span → ∀ e ∈ events, e.stage = .submitted →
    e.time.toNat + span.toNat < Time.never.toNat →
    ∀ e' ∈ events,
      (e'.stage = .scheduled → e'.time.toNat < e.time.toNat + span.toNat) ∧
      (e'.stage = .rejected → e'.time.toNat = e.time.toNat + span.toNat)
  patient : maxSearch = none → ∀ e ∈ events, e.stage ≠ .rejected

/-- The event of a submission. -/
def Request.submittedEvent (r : Request) : RideEvent :=
  ⟨r.submittedAt, .submitted, r.id, r.passenger, none⟩

/-- The request gives up after the passenger's search. -/
def Request.Searches (r : Request) (maxSearch : Option Time) : Prop :=
  r.latestStart = match maxSearch with
    | some span => r.submittedAt + span
    | none => Time.never

/-- What a ledger says about a request, and what has been logged about it. -/
inductive Story (maxSearch : Option Time) (l : Ledger) (id : RequestId) : List RideEvent → Prop
  | unheard :
    id ∉ l.submitted.map Request.id →
    Story maxSearch l id []
  | waiting {r : Request} :
    r ∈ l.submitted → r.id = id →
    id ∉ l.withdrawn →
    (∀ ride ∈ l.rides, ride.request ≠ id) →
    Story maxSearch l id [r.submittedEvent]
  | rejected {r : Request} {span : Time} :
    r ∈ l.submitted → r.id = id →
    id ∈ l.withdrawn →
    maxSearch = some span →
    Story maxSearch l id
      [r.submittedEvent, ⟨r.submittedAt + span, .rejected, id, r.passenger, none⟩]
  | scheduled {r : Request} {ride : CommittedRide} {time : Time} :
    r ∈ l.submitted → r.id = id →
    ride ∈ l.rides → ride.request = id →
    r.passenger = ride.passenger →
    r.isExpired time = false →
    Story maxSearch l id
      (r.submittedEvent :: ⟨time, .scheduled, id, ride.passenger, some ride.vehicle⟩ ::
        (l.retired.filter fun t => t.request = id).filterMap TaskEnded.rideEvent?)

section Deadline

variable {r : Request} {span now : Time}

lemma toNat_deadline {t : Time} (moment : t.toNat + span.toNat < Time.never.toNat) :
    (t + span).toNat = t.toNat + span.toNat := by
  rw [Time.toNat_add]
  exact Nat.min_eq_left (Nat.le_of_lt moment)

/-- A request that has not expired has not reached its deadline. -/
lemma lt_deadline_of_not_expired (search : r.Searches (some span))
    (moment : r.submittedAt.toNat + span.toNat < Time.never.toNat)
    (open_ : r.isExpired now = false) : now.toNat < r.submittedAt.toNat + span.toNat := by
  have latest : r.latestStart.toNat = r.submittedAt.toNat + span.toNat := by
    rw [search]
    exact toNat_deadline moment
  have reached : r.latestStart ≠ Time.never := by
    intro same
    rw [same] at latest
    omega
  rw [← latest, ← Nat.not_le, ← Time.le_iff]
  intro late
  rw [Request.isExpired_iff.mpr ⟨reached, late⟩] at open_
  cases open_

end Deadline

section Retired

variable {ts : List TaskEnded} {id : RequestId} {passenger : PassengerId} {vehicle : VehicleId}

lemma stages_filterMap_rideEvent? :
    (ts.filterMap TaskEnded.rideEvent?).map RideEvent.stage =
      (ts.map TaskEnded.duty).filterMap fun duty => duty.kind.stage? := by
  rw [List.map_filterMap, List.filterMap_map]
  apply List.filterMap_congr
  intro t _
  show (t.kind.stage?.map _).map _ = t.kind.stage?
  cases t.kind.stage? <;> rfl

/-- The first tasks of a ride mark its pickup and then its drop-off. -/
lemma stages_of_front (part : ts.map TaskEnded.duty <+: rideDuties id passenger) :
    (ts.filterMap TaskEnded.rideEvent?).map RideEvent.stage <+: [.pickedUp, .droppedOff] := by
  rw [stages_filterMap_rideEvent?]
  exact part.filterMap _

/-- What the tasks of a ride mark is for its passenger and by its vehicle. -/
lemma event_of_front (part : ts.map TaskEnded.duty <+: rideDuties id passenger)
    (own : ∀ t ∈ ts, t.vehicle = vehicle) {e : RideEvent}
    (member : e ∈ ts.filterMap TaskEnded.rideEvent?) :
    (e.stage = .pickedUp ∨ e.stage = .droppedOff) ∧ e.passenger = passenger ∧
      e.vehicle = some vehicle := by
  have stage := (stages_of_front part).subset (List.mem_map_of_mem member)
  obtain ⟨t, listed, marked⟩ := List.mem_filterMap.mp member
  obtain ⟨_, _, rfl⟩ := Option.map_eq_some_iff.mp marked
  have duty := part.subset (List.mem_map_of_mem (f := TaskEnded.duty) listed)
  obtain ⟨_, _, same⟩ := List.mem_map.mp duty
  refine ⟨by simpa using stage, ?_, congrArg some (own t listed)⟩
  exact (congrArg Duty.passenger same).symm

end Retired

/-! ## The three ways -/

namespace Lifecycle

variable {maxSearch : Option Time} {r : Request} {span time : Time} {id : RequestId}

lemma waiting : Lifecycle maxSearch [r.submittedEvent] := by
  have all : ∀ e ∈ [r.submittedEvent], e = r.submittedEvent := by simp
  refine ⟨.inl (by simp [Request.submittedEvent]), ⟨r.passenger, ?_⟩, ⟨⟨0⟩, ?_⟩, ?_, ?_⟩
  · intro e member
    rw [all e member]
    rfl
  · intro e member stage
    rw [all e member] at stage
    simp [Request.submittedEvent] at stage
  · intro span _ e _ _ _ e' member
    rw [all e' member]
    exact ⟨nofun, nofun⟩
  · intro _ e member
    rw [all e member]
    exact nofun

lemma rejected (found : maxSearch = some span) : Lifecycle maxSearch
    [r.submittedEvent, ⟨r.submittedAt + span, .rejected, id, r.passenger, none⟩] := by
  refine ⟨.inl (by simp [Request.submittedEvent]), ⟨r.passenger, ?_⟩, ⟨⟨0⟩, ?_⟩, ?_, ?_⟩
  · simp [Request.submittedEvent]
  · simp [Request.submittedEvent]
  · intro span' found' e member stage moment e' member'
    obtain rfl : span = span' := Option.some.inj (found.symm.trans found')
    simp only [List.mem_cons, List.not_mem_nil, or_false] at member member'
    rcases member with rfl | rfl
    · rcases member' with rfl | rfl
      · exact ⟨nofun, nofun⟩
      · exact ⟨nofun, fun _ => toNat_deadline moment⟩
    · cases stage
  · rw [found]
    exact nofun

lemma scheduled {ride : CommittedRide} {ts : List TaskEnded} (search : r.Searches maxSearch)
    (passenger : r.passenger = ride.passenger) (inTime : r.isExpired time = false)
    (part : ts.map TaskEnded.duty <+: rideDuties id ride.passenger)
    (vehicles : ∀ t ∈ ts, t.vehicle = ride.vehicle) : Lifecycle maxSearch
      (r.submittedEvent :: ⟨time, .scheduled, id, ride.passenger, some ride.vehicle⟩ ::
        ts.filterMap TaskEnded.rideEvent?) := by
  -- an event is the submission, the commitment, or marked by a task of the ride
  have kinds : ∀ e ∈ r.submittedEvent ::
      ⟨time, .scheduled, id, ride.passenger, some ride.vehicle⟩ :: ts.filterMap TaskEnded.rideEvent?,
      e = r.submittedEvent ∨ e = ⟨time, .scheduled, id, ride.passenger, some ride.vehicle⟩ ∨
        (e.stage = .pickedUp ∨ e.stage = .droppedOff) ∧ e.passenger = ride.passenger ∧
          e.vehicle = some ride.vehicle := by
    intro e member
    simp only [List.mem_cons] at member
    rcases member with first | second | later
    · exact .inl first
    · exact .inr (.inl second)
    · exact .inr (.inr (event_of_front part vehicles later))
  refine ⟨.inr ?_, ⟨ride.passenger, ?_⟩, ⟨ride.vehicle, ?_⟩, ?_, ?_⟩
  · exact (List.prefix_append_right_inj [.submitted, .scheduled]).mpr (stages_of_front part)
  · intro e member
    rcases kinds e member with rfl | rfl | ⟨_, same, _⟩
    · exact passenger
    · rfl
    · exact same
  · intro e member stage
    rcases kinds e member with rfl | rfl | ⟨_, _, same⟩
    · simp [Request.submittedEvent] at stage
    · rfl
    · exact same
  · intro span found e first stage moment e' second
    rcases kinds e first with rfl | rfl | ⟨later, _⟩
    · rcases kinds e' second with rfl | rfl | ⟨later, _⟩
      · exact ⟨nofun, nofun⟩
      · exact ⟨fun _ => lt_deadline_of_not_expired (found ▸ search) moment inTime, nofun⟩
      · rcases later with stage | stage <;> simp [stage]
    · cases stage
    · rcases later with stage' | stage' <;> simp [stage'] at stage
  · intro _ e member
    rcases kinds e member with rfl | rfl | ⟨later, _⟩
    · exact nofun
    · exact nofun
    · rcases later with stage | stage <;> simp [stage]

end Lifecycle

section Story

variable {maxSearch : Option Time} {l : Ledger} {id : RequestId} {events : List RideEvent}
variable {state : DispatchState} {fleet : ScheduledFleet}

/-- A story by a balanced ledger is a lifecycle. -/
lemma Story.isLifecycle (story : Story maxSearch l id events) (h : l.Balanced state fleet)
    (once : (l.rides.map CommittedRide.request).Nodup)
    (searches : ∀ r ∈ l.submitted, r.Searches maxSearch) : Lifecycle maxSearch events := by
  cases story with
  | unheard => exact ⟨.inl List.nil_prefix, ⟨⟨0⟩, nofun⟩, ⟨⟨0⟩, nofun⟩, nofun, nofun⟩
  | waiting => exact .waiting
  | rejected _ _ _ found => exact .rejected found
  | scheduled submitted _ member ownRide passenger inTime =>
    subst ownRide
    refine .scheduled (searches _ submitted) passenger inTime (h.retired_prefix once member) ?_
    intro t listed
    obtain ⟨retired, same⟩ := List.mem_filter.mp listed
    exact h.vehicle_of_retired once member retired (of_decide_eq_true same)

/-- Two ledgers say the same about a request. -/
structure Ledger.Agrees (l l' : Ledger) (id : RequestId) : Prop where
  submitted : ∀ r : Request, r.id = id → (r ∈ l'.submitted ↔ r ∈ l.submitted)
  withdrawn : id ∈ l'.withdrawn ↔ id ∈ l.withdrawn
  rides : ∀ ride : CommittedRide, ride.request = id → (ride ∈ l'.rides ↔ ride ∈ l.rides)
  retired : l'.retired.filter (fun t => t.request = id) = l.retired.filter fun t => t.request = id

lemma Story.agrees {l' : Ledger} (story : Story maxSearch l id events) (same : l.Agrees l' id) :
    Story maxSearch l' id events := by
  cases story with
  | unheard new =>
    apply Story.unheard
    intro member
    obtain ⟨r, submitted, own⟩ := List.mem_map.mp member
    exact new (List.mem_map.mpr ⟨r, (same.submitted r own).mp submitted, own⟩)
  | waiting submitted own kept free =>
    refine .waiting ((same.submitted _ own).mpr submitted) own (fun h => kept (same.withdrawn.mp h)) ?_
    intro ride member ownRide
    exact free ride ((same.rides ride ownRide).mp member) ownRide
  | rejected submitted own gone found =>
    exact .rejected ((same.submitted _ own).mpr submitted) own (same.withdrawn.mpr gone) found
  | scheduled submitted own member ownRide passenger open_ =>
    rw [← same.retired]
    exact .scheduled ((same.submitted _ own).mpr submitted) own
      ((same.rides _ ownRide).mpr member) ownRide passenger open_

/-- The story of a request of which nothing has come yet. -/
lemma Story.waiting_inv (story : Story maxSearch l id events)
    (known : id ∈ l.submitted.map Request.id) (kept : id ∉ l.withdrawn)
    (free : ∀ ride ∈ l.rides, ride.request ≠ id) :
    ∃ r ∈ l.submitted, r.id = id ∧ events = [r.submittedEvent] := by
  cases story with
  | unheard new => exact absurd known new
  | waiting submitted own => exact ⟨_, submitted, own, rfl⟩
  | rejected _ _ gone => exact absurd gone kept
  | scheduled _ _ member ownRide => exact absurd ownRide (free _ member)

lemma Story.unheard_inv (story : Story maxSearch l id events)
    (new : id ∉ l.submitted.map Request.id) : events = [] := by
  cases story with
  | unheard => rfl
  | waiting submitted own => exact absurd (List.mem_map.mpr ⟨_, submitted, own⟩) new
  | rejected submitted own => exact absurd (List.mem_map.mpr ⟨_, submitted, own⟩) new
  | scheduled submitted own => exact absurd (List.mem_map.mpr ⟨_, submitted, own⟩) new

/-- A request that is in one place has no ride once it is given up. -/
lemma Ledger.Balanced.not_served (h : l.Balanced state fleet)
    (once : (l.submitted.map Request.id).Nodup) (gone : id ∈ l.withdrawn) :
    ∀ ride ∈ l.rides, ride.request ≠ id := by
  intro ride member own
  have placed := h.conserved id
  have bound := List.nodup_iff_count_le_one.mp once id
  have first := List.count_pos_iff.mpr gone
  have second := List.count_pos_iff.mpr (List.mem_map_of_mem (f := CommittedRide.request) member)
  rw [own] at second
  unfold places at placed
  omega

/-- What tasks mark that are retired for a request continues its story. -/
lemma Story.retire {ended : List TaskEnded} (story : Story maxSearch l id events)
    (h : { l with retired := l.retired ++ ended }.Balanced state fleet)
    (once : (l.submitted.map Request.id).Nodup) :
    Story maxSearch { l with retired := l.retired ++ ended } id
      (events ++ (ended.filter fun t => t.request = id).filterMap TaskEnded.rideEvent?) := by
  -- without a ride nothing is retired
  have silent : (∀ ride ∈ l.rides, ride.request ≠ id) →
      Story maxSearch { l with retired := l.retired ++ ended } id
        (events ++ (ended.filter fun t => t.request = id).filterMap TaskEnded.rideEvent?) := by
    intro absent
    have all := h.retired_eq_nil absent
    obtain ⟨before, now_⟩ := List.append_eq_nil_iff.mp ((List.filter_append _ _).symm.trans all)
    rw [now_, List.filterMap_nil, List.append_nil]
    exact story.agrees ⟨fun _ _ => .rfl, .rfl, fun _ _ => .rfl, all.trans before.symm⟩
  cases story with
  | unheard new =>
    apply silent
    intro ride member own
    obtain ⟨r, submitted, same, _⟩ := h.carried ride member
    exact new (List.mem_map.mpr ⟨r, submitted, same.trans own⟩)
  | waiting _ _ _ free => exact silent free
  | rejected _ _ gone => exact silent (h.not_served once gone)
  | scheduled submitted own member ownRide passenger open_ =>
    rw [List.cons_append, List.cons_append, ← List.filterMap_append, ← List.filter_append]
    exact .scheduled submitted own member ownRide passenger open_

end Story

end RideDispatch

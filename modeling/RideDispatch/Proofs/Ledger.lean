import Mathlib.Data.List.Nodup
import RideDispatch.Proofs.Cycle
import RideDispatch.Proofs.Duty

/-!
# The ledger of requests

A `Ledger` lists what has become of requests: those submitted, those given up, the rides committed and the
tasks retired. It is `Balanced` with the state of a dispatcher and a fleet if each request counts as often
as it was submitted, in the queue or as given up or as a ride, and if the duties that a vehicle has had are
those of its rides. Every step of a cycle keeps it so (`Session.Step.balanced`), and so do the submission
of a new request and its withdrawal (`Balanced.submit`, `Balanced.withdraw`) and the progress of the fleet
(`Balanced.advance`).
-/

namespace RideDispatch

/-- What has become of requests. -/
structure Ledger where
  submitted : List Request := []
  withdrawn : List RequestId := []
  rides : List CommittedRide := []
  retired : List TaskEnded := []

namespace Ledger

variable {l : Ledger} {state : DispatchState} {fleet fleet' : ScheduledFleet}

/-- The ledger with more rides. -/
def ride (l : Ledger) (rides : List CommittedRide) : Ledger := { l with rides := l.rides ++ rides }

/-- In how many places a request is: in the queue, given up, or a ride. -/
def places (l : Ledger) (queue : RequestQueue) (id : RequestId) : Nat :=
  (queue.contains id).toNat + l.withdrawn.count id + (l.rides.map CommittedRide.request).count id

/-- The duties that a vehicle has been given, those retired first. -/
def given (l : Ledger) (fleet : ScheduledFleet) (v : VehicleId) : List Duty :=
  (l.retired.filter fun t => t.vehicle = v).map TaskEnded.duty ++ fleet.duties v

/-- The duties of the rides of a vehicle. -/
def owed (l : Ledger) (v : VehicleId) : List Duty :=
  (l.rides.filter fun ride => ride.vehicle = v).flatMap CommittedRide.duties

/-- A request that is in no other place than the queue is not given up and has no ride. -/
lemma only_queued {queue : RequestQueue} {id : RequestId}
    (h : l.places queue id ≤ (queue.contains id).toNat) :
    id ∉ l.withdrawn ∧ ∀ ride ∈ l.rides, ride.request ≠ id := by
  unfold places at h
  constructor
  · apply List.count_eq_zero.mp
    omega
  · intro ride member own
    have served := List.count_pos_iff.mpr (List.mem_map_of_mem (f := CommittedRide.request) member)
    rw [own] at served
    omega

/-- Of the duties owed, those for one request are those of its rides. -/
lemma filter_owed {v : VehicleId} {id : RequestId} :
    (l.owed v).filter (fun duty => duty.request = id) =
      ((l.rides.filter fun ride => ride.request = id).filter fun ride => ride.vehicle = v).flatMap
        CommittedRide.duties := by
  unfold owed
  rw [List.filter_comm]
  induction l.rides.filter (fun ride => ride.vehicle = v) with
  | nil => rfl
  | cons ride rest ih =>
    rw [List.flatMap_cons, List.filter_append, ih]
    by_cases same : ride.request = id
    · have all : ride.duties.filter (fun duty => duty.request = id) = ride.duties := by
        rw [List.filter_eq_self]
        intro duty member
        exact decide_eq_true ((request_of_mem_rideDuties member).trans same)
      rw [all, List.filter_cons, if_pos (decide_eq_true same), List.flatMap_cons]
    · have none_ : ride.duties.filter (fun duty => duty.request = id) = [] := by
        rw [List.filter_eq_nil_iff]
        intro duty member
        simpa [request_of_mem_rideDuties member] using same
      rw [none_, List.filter_cons, if_neg (by simpa using same), List.nil_append]

/-- The duties owed for a request without a ride are none. -/
lemma filter_owed_of_absent {v : VehicleId} {id : RequestId}
    (absent : ∀ ride ∈ l.rides, ride.request ≠ id) :
    (l.owed v).filter (fun duty => duty.request = id) = [] := by
  have none_ : l.rides.filter (fun ride => ride.request = id) = [] := by
    rw [List.filter_eq_nil_iff]
    intro ride member
    simpa using absent ride member
  rw [filter_owed, none_]
  rfl

lemma filter_eq_singleton {rides : List CommittedRide} {ride : CommittedRide}
    (once : (rides.map CommittedRide.request).Nodup) (member : ride ∈ rides) :
    rides.filter (fun other => other.request = ride.request) = [ride] := by
  induction rides with
  | nil => cases member
  | cons first rest ih =>
    obtain ⟨new, once⟩ := List.nodup_cons.mp once
    rcases List.mem_cons.mp member with rfl | member
    · rw [List.filter_cons, if_pos (decide_eq_true rfl), List.filter_eq_nil_iff.mpr]
      intro other later same
      exact new (of_decide_eq_true same ▸ List.mem_map_of_mem later)
    · have other : first.request ≠ ride.request :=
        fun same => new (same ▸ List.mem_map_of_mem member)
      rw [List.filter_cons, if_neg (by simpa using other)]
      exact ih once member

/-- The duties owed for a request with one ride are those of the ride. -/
lemma filter_owed_of_mem {v : VehicleId} {ride : CommittedRide}
    (once : (l.rides.map CommittedRide.request).Nodup) (member : ride ∈ l.rides) :
    (l.owed v).filter (fun duty => duty.request = ride.request) =
      if ride.vehicle = v then ride.duties else [] := by
  rw [filter_owed, filter_eq_singleton once member]
  by_cases same : ride.vehicle = v <;> simp [same]

/-- The ledger tells what has become of requests. -/
structure Balanced (l : Ledger) (state : DispatchState) (fleet : ScheduledFleet) : Prop where
  sound : state.Sound
  keyed : fleet.Keyed
  /-- A confirmation is for the passenger of a queued request. -/
  bound : ∀ c, state.registry.Holds c →
    ∃ r, state.queue.get? c.request = some r ∧ r.passenger = c.passenger
  /-- A queued request is one that was submitted, but for its attempts. -/
  queued : ∀ id r, state.queue.get? id = some r → ∃ r₀ ∈ l.submitted, ∃ n, r = r₀.tried n
  /-- A ride is for the passenger of a request that was submitted. -/
  carried : ∀ ride ∈ l.rides, ∃ r ∈ l.submitted, r.id = ride.request ∧ r.passenger = ride.passenger
  conserved : ∀ id, l.places state.queue id = (l.submitted.map Request.id).count id
  work : ∀ v, l.given fleet v = l.owed v

lemma Balanced.start {delay pickupDuration dropoffDuration : Time} {resolution : Resolution}
    {router : Router} : ({} : Ledger).Balanced (.empty delay resolution)
      (.empty router pickupDuration dropoffDuration) where
  sound := .empty delay resolution
  keyed := ScheduledFleet.keyed_empty router pickupDuration dropoffDuration
  bound := fun _ held => (Registry.not_holds_empty held).elim
  queued := by
    intro id r found
    simp [DispatchState.empty, RequestQueue.empty, RequestQueue.get?] at found
  carried := nofun
  conserved := by
    intro id
    simp [places, DispatchState.empty, RequestQueue.empty, RequestQueue.contains]
  work := by
    intro v
    simp [given, owed, ScheduledFleet.duties, ScheduledFleet.empty, ScheduledFleet.vehicle?]

/-- A queued request that becomes a ride stays in as many places as before. -/
lemma places_ride {queue : RequestQueue} (ride : CommittedRide) {request : Request} {id : RequestId}
    (queued : queue.get? ride.request = some request) :
    (l.ride [ride]).places (queue.erase ride.request) id = l.places queue id := by
  unfold places Ledger.ride
  rw [List.map_append, List.count_append, List.map_singleton, List.count_singleton,
    RequestQueue.contains_eq_isSome, RequestQueue.contains_eq_isSome, RequestQueue.get?_erase]
  by_cases same : ride.request = id
  · subst same
    rw [queued]
    simp
    omega
  · simp [same]

lemma owed_ride {ride : CommittedRide} {v : VehicleId} :
    (l.ride [ride]).owed v = l.owed v ++ if ride.vehicle = v then ride.duties else [] := by
  unfold owed Ledger.ride
  rw [List.filter_append, List.flatMap_append]
  by_cases same : ride.vehicle = v
  · simp [same]
  · simp [same]

lemma given_commit {now : Time} {v id : VehicleId} {request : Request} {pickup : Route}
    {rides : List CommittedRide} (committed : fleet.commit id request pickup now = .ok fleet') :
    (l.ride rides).given fleet' v =
      l.given fleet v ++ if id = v then rideDuties request.id request.passenger else [] := by
  unfold given
  rw [ScheduledFleet.duties_commit committed, List.append_assoc]
  rfl

/-- A ride is no longer queued and is carried by its vehicle. -/
lemma Balanced.commit {now : Time} {c : Confirmation} {request : Request} {pickup : Route}
    (zones : Zones) (h : l.Balanced state fleet) (held : state.registry.Holds c)
    (queued : state.queue.get? c.request = some request)
    (committed : fleet.commit c.vehicle request pickup now = .ok fleet') :
    (l.ride [⟨c.request, c.passenger, c.vehicle⟩]).Balanced
      ⟨state.queue.erase c.request, state.registry.unregister c, zones⟩ fleet' := by
  have own : request.id = c.request := h.sound.queue _ _ queued
  have passenger : request.passenger = c.passenger := by
    obtain ⟨r, found, same⟩ := h.bound c held
    rw [queued] at found
    rw [Option.some.inj found, same]
  constructor
  case sound => exact ⟨h.sound.registry.unregister held, h.sound.queue.erase⟩
  case keyed => exact h.keyed.commit committed
  case bound =>
    intro c' held'
    obtain ⟨before, ne⟩ := (Registry.holds_unregister held).mp held'
    -- the confirmations that are left are for other requests
    have apart : c.request ≠ c'.request :=
      fun same => ne (h.sound.registry.byRequest.inj before held same.symm)
    rw [RequestQueue.get?_erase, if_neg apart]
    exact h.bound c' before
  case queued =>
    intro id r found
    exact h.queued id r (RequestQueue.get?_of_erase found)
  case carried =>
    intro ride member
    rcases List.mem_append.mp member with member | new
    · exact h.carried ride member
    · rw [List.mem_singleton.mp new]
      obtain ⟨r₀, member, n, rfl⟩ := h.queued _ _ queued
      exact ⟨r₀, member, own, passenger⟩
  case conserved =>
    intro id
    rw [places_ride ⟨c.request, c.passenger, c.vehicle⟩ queued]
    exact h.conserved id
  case work =>
    intro v
    rw [given_commit committed, owed_ride, h.work, own, passenger]
    rfl

/-- Counting attempts changes neither where requests are nor whom they are for. -/
lemma Balanced.countAttempts (h : l.Balanced state fleet) (ids : List RequestId) :
    l.Balanced { state with queue := ids.foldl RequestQueue.countAttempt state.queue } fleet := by
  refine { h with sound := ⟨h.sound.registry, h.sound.queue.countAttempts⟩, bound := ?_, queued := ?_,
                  conserved := ?_ }
  · intro c held
    obtain ⟨r, found, same⟩ := h.bound c held
    refine ⟨r.tried (ids.count c.request), ?_, same⟩
    rw [RequestQueue.get?_countAttempts, found]
    rfl
  · intro id r found
    rw [RequestQueue.get?_countAttempts] at found
    obtain ⟨before, queued, rfl⟩ := Option.map_eq_some_iff.mp found
    obtain ⟨r₀, member, n, rfl⟩ := h.queued id before queued
    refine ⟨r₀, member, n + ids.count id, ?_⟩
    simp [Request.tried, Nat.add_assoc]
  · intro id
    have before := h.conserved id
    unfold Ledger.places at *
    rw [RequestQueue.contains_eq_isSome] at *
    rwa [RequestQueue.get?_countAttempts, Option.isSome_map]

/-- No two rides are for one request that was submitted once. -/
lemma Balanced.nodup_rides (h : l.Balanced state fleet)
    (once : (l.submitted.map Request.id).Nodup) : (l.rides.map CommittedRide.request).Nodup := by
  rw [List.nodup_iff_count_le_one] at once ⊢
  intro id
  have placed := h.conserved id
  have bound := once id
  unfold places at placed
  omega

section Retired

variable {ride : CommittedRide}

/-- The tasks that have been retired for a ride were those of its vehicle. -/
lemma Balanced.vehicle_of_retired (h : l.Balanced state fleet)
    (once : (l.rides.map CommittedRide.request).Nodup) (member : ride ∈ l.rides) {t : TaskEnded}
    (retired : t ∈ l.retired) (own : t.request = ride.request) : t.vehicle = ride.vehicle := by
  have given : t.duty ∈ (l.given fleet t.vehicle).filter
      fun duty => duty.request = ride.request := by
    refine List.mem_filter.mpr ⟨List.mem_append_left _ (List.mem_map_of_mem ?_), decide_eq_true own⟩
    exact List.mem_filter.mpr ⟨retired, decide_eq_true rfl⟩
  rw [h.work, filter_owed_of_mem once member] at given
  split at given
  · rename_i same
    exact same.symm
  · cases given

/-- The tasks that have been retired for a ride and those that its vehicle has still to do for it are the
four tasks of a ride. -/
lemma Balanced.retired_append (h : l.Balanced state fleet)
    (once : (l.rides.map CommittedRide.request).Nodup) (member : ride ∈ l.rides) :
    (l.retired.filter fun t => t.request = ride.request).map TaskEnded.duty ++
      (fleet.duties ride.vehicle).filter (fun duty => duty.request = ride.request) = ride.duties := by
  have given : (l.given fleet ride.vehicle).filter (fun duty => duty.request = ride.request) =
      ride.duties := by
    rw [h.work, filter_owed_of_mem once member, if_pos rfl]
  unfold Ledger.given at given
  rw [List.filter_append, List.filter_map, List.filter_comm] at given
  -- whatever has been retired for the request was done by the vehicle of the ride
  have all : (l.retired.filter (fun t => t.request = ride.request)).filter
      (fun t => t.vehicle = ride.vehicle) =
        l.retired.filter fun t => t.request = ride.request := by
    rw [List.filter_eq_self]
    intro t listed
    obtain ⟨retired, own⟩ := List.mem_filter.mp listed
    exact decide_eq_true (h.vehicle_of_retired once member retired (of_decide_eq_true own))
  rw [← all, ← given]
  rfl

/-- The tasks that have been retired for a ride are the first ones of its four. -/
lemma Balanced.retired_prefix (h : l.Balanced state fleet)
    (once : (l.rides.map CommittedRide.request).Nodup) (member : ride ∈ l.rides) :
    (l.retired.filter fun t => t.request = ride.request).map TaskEnded.duty <+: ride.duties := by
  rw [← h.retired_append once member]
  exact List.prefix_append _ _

/-- No task has been retired for a request without a ride. -/
lemma Balanced.retired_eq_nil (h : l.Balanced state fleet) {id : RequestId}
    (absent : ∀ ride ∈ l.rides, ride.request ≠ id) :
    (l.retired.filter fun t => t.request = id) = [] := by
  rw [List.filter_eq_nil_iff]
  intro t retired own
  have given : t.duty ∈ (l.given fleet t.vehicle).filter fun duty => duty.request = id := by
    refine List.mem_filter.mpr ⟨List.mem_append_left _ (List.mem_map_of_mem ?_), own⟩
    exact List.mem_filter.mpr ⟨retired, decide_eq_true rfl⟩
  rw [h.work, filter_owed_of_absent absent] at given
  cases given

end Retired

end Ledger

namespace Session

variable {s s' : Session ScheduledFleet} {now : Time} {l : Ledger}

/-- Every step of a cycle keeps the ledger balanced. -/
lemma Step.balanced (step : Step now s s')
    (h : (l.ride s.report.committed).Balanced s.state s.fleet) :
    (l.ride s'.report.committed).Balanced s'.state s'.fleet := by
  have sound := step.sound h.sound
  cases step with
  | sync => exact { h with sound := sound }
  | attempts ids => exact h.countAttempts ids
  | tally same => rwa [same]
  | note => exact { h with }
  | opens queued added =>
    obtain ⟨own, admits, rfl, rfl⟩ := Registry.add_eq_ok added
    refine { h with sound := sound, bound := ?_ }
    intro c' held
    rcases (Registry.holds_register h.sound.registry admits).mp held with rfl | before
    · obtain rfl := h.sound.queue _ _ queued
      rw [own]
      exact ⟨_, queued, rfl⟩
    · exact h.bound c' before
  | @commits c _ held _ outcome =>
    obtain ⟨_, _, request, queued, _, committed⟩ := outcome_eq_ok outcome
    have balanced := h.commit ((s.state.zones.eraseRequest c.request).eraseVehicle c.vehicle) held
      queued committed
    simpa [Ledger.ride, commitRide, close, CycleReport.addCommitted] using balanced
  | drops held =>
    refine { h with sound := sound, bound := ?_ }
    intro c' held'
    exact h.bound c' ((Registry.holds_unregister held).mp held').1

lemma Steps.balanced (steps : Steps now s s')
    (h : (l.ride s.report.committed).Balanced s.state s.fleet) :
    (l.ride s'.report.committed).Balanced s'.state s'.fleet := by
  induction steps with
  | refl => exact h
  | tail _ step ih => exact step.balanced ih

/-- A ride is committed before its request expires. -/
lemma Steps.timely (steps : Steps now s s')
    (h : (l.ride s.report.committed).Balanced s.state s.fleet) :
    ∀ ride ∈ s'.report.committed, ride ∈ s.report.committed ∨
      ∃ r ∈ l.submitted, r.id = ride.request ∧ r.isExpired now = false := by
  induction steps with
  | refl => exact fun ride member => .inl member
  | tail before step ih =>
    intro ride member
    have balanced := Steps.balanced before h
    cases step with
    | sync => exact ih ride member
    | attempts => exact ih ride member
    | tally same => exact ih ride (same ▸ member)
    | note => exact ih ride member
    | opens => exact ih ride member
    | drops => exact ih ride member
    | commits _ _ outcome =>
      obtain ⟨_, _, request, queued, open_, _⟩ := outcome_eq_ok outcome
      rcases List.mem_append.mp member with member | new
      · exact ih ride member
      · rw [List.mem_singleton.mp new]
        have own : request.id = _ := balanced.sound.queue _ _ queued
        obtain ⟨r₀, submitted, n, rfl⟩ := balanced.queued _ _ queued
        exact .inr ⟨r₀, submitted, own, open_⟩

end Session

namespace Ledger.Balanced

variable {l : Ledger} {d : Dispatcher} {state : DispatchState} {fleet fleet' : ScheduledFleet}

/-- What is queued has been submitted. -/
lemma mem_submitted (h : l.Balanced state fleet) {id : RequestId} {r : Request}
    (found : state.queue.get? id = some r) : id ∈ l.submitted.map Request.id := by
  have own : r.id = id := h.sound.queue _ _ found
  obtain ⟨r₀, member, n, rfl⟩ := h.queued id r found
  exact List.mem_map.mpr ⟨r₀, member, own⟩

/-- A request is submitted that is new. -/
lemma submit (h : l.Balanced d.state fleet) {request : Request}
    (new : request.id ∉ l.submitted.map Request.id) :
    { l with submitted := l.submitted ++ [request] }.Balanced (d.submit request).state fleet := by
  refine { h with
    sound := Dispatcher.submit_sound h.sound
    bound := ?_
    queued := ?_
    carried := ?_
    conserved := ?_ }
  · intro c held
    obtain ⟨r, found, passenger⟩ := h.bound c held
    refine ⟨r, ?_, passenger⟩
    have other : request.id ≠ c.request := fun same => new (same ▸ h.mem_submitted found)
    rw [Dispatcher.submit, RequestQueue.get?_insert, if_neg other]
    exact found
  · intro id r found
    rw [Dispatcher.submit, RequestQueue.get?_insert] at found
    split at found
    · cases found
      exact ⟨request, List.mem_append_right _ List.mem_cons_self, 0, rfl⟩
    · obtain ⟨r₀, member, same⟩ := h.queued id r found
      exact ⟨r₀, List.mem_append_left _ member, same⟩
  · intro ride member
    obtain ⟨r, member, same⟩ := h.carried ride member
    exact ⟨r, List.mem_append_left _ member, same⟩
  · intro id
    have before := h.conserved id
    unfold places at *
    simp only [Dispatcher.submit, RequestQueue.contains_eq_isSome, RequestQueue.get?_insert,
      List.map_append, List.map_cons, List.map_nil, List.count_append, List.count_singleton] at *
    by_cases same : request.id = id
    · subst same
      rw [List.count_eq_zero.mpr new] at *
      simp at *
      omega
    · simpa [same] using before

/-- A request is given up. -/
lemma withdraw (h : l.Balanced d.state fleet) {id : RequestId} {now : Time} {w : Withdrawal}
    (gone : d.withdraw id now = some w) :
    { l with withdrawn := l.withdrawn ++ [id] }.Balanced w.dispatcher.state fleet := by
  have sound := Dispatcher.withdraw_sound h.sound gone
  rw [Dispatcher.withdraw_eq h.sound] at gone
  obtain ⟨request, found, rfl⟩ := Option.map_eq_some_iff.mp gone
  refine { h with sound := sound, bound := ?_, queued := ?_, conserved := ?_ }
  · intro c held
    obtain ⟨before, other⟩ := (Registry.holds_release h.sound.registry).mp held
    rw [RequestQueue.get?_erase, if_neg other.symm]
    exact h.bound c before
  · intro id' r queued
    exact h.queued id' r (RequestQueue.get?_of_erase queued)
  · intro id'
    have before := h.conserved id'
    unfold places at *
    simp only [RequestQueue.contains_eq_isSome, RequestQueue.get?_erase, List.count_append,
      List.count_singleton] at *
    by_cases same : id = id'
    · subst same
      rw [found] at before
      simp at *
      omega
    · simpa [same] using before

/-- A vehicle retires tasks. -/
lemma advance (h : l.Balanced state fleet) {v : VehicleId} {now : Time} :
    { l with retired := l.retired ++ (fleet.advance v now).1 }.Balanced state
      (fleet.advance v now).2 where
  sound := h.sound
  keyed := h.keyed.advance
  bound := h.bound
  queued := h.queued
  carried := h.carried
  conserved := h.conserved
  work := by
    intro v'
    have before := h.work v'
    unfold given at *
    rw [ScheduledFleet.duties_advance v now h.keyed] at before
    rw [List.filter_append, List.map_append, List.append_assoc]
    exact before

lemma addVehicle (h : l.Balanced state fleet) {v : VehicleId} {place : Place}
    {serviceBegin serviceEnd : Time}
    (added : fleet.addVehicle v place serviceBegin serviceEnd = .ok fleet') :
    l.Balanced state fleet' where
  sound := h.sound
  keyed := h.keyed.addVehicle added
  bound := h.bound
  queued := h.queued
  carried := h.carried
  conserved := h.conserved
  work := by
    intro v'
    have before := h.work v'
    unfold given at *
    rwa [ScheduledFleet.duties_addVehicle added]

lemma begin (h : l.Balanced d.state fleet) (now : Time) :
    l.Balanced (d.begin now fleet).state (d.begin now fleet).fleet :=
  { h with
    sound := Dispatcher.begin_sound h.sound
    bound := by
      intro c held
      obtain ⟨c, before, rfl⟩ := Registry.holds_tick.mp held
      rw [Confirmation.request_tick, Confirmation.passenger_tick]
      exact h.bound c before }

/-- A cycle commits the rides that it reports. -/
lemma cycle (h : l.Balanced d.state fleet) (ctx : CycleContext) :
    (l.ride (d.pass ctx fleet).session.report.committed).Balanced
      (d.pass ctx fleet).session.state (d.pass ctx fleet).session.fleet := by
  refine Session.Steps.balanced (Dispatcher.pass_steps h.sound) ?_
  rw [show l.ride (d.begin ctx.now fleet).report.committed = l by simp [ride, Dispatcher.begin]]
  exact h.begin ctx.now

end Ledger.Balanced

end RideDispatch

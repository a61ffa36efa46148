import RideDispatch.Proofs.Ledger
import RideDispatch.Proofs.Schedule
import RideDispatch.Proofs.Ways

/-!
# Itineraries

What a cycle gives a vehicle to do is an `Itinerary`: rides one after the other, each of which begins on the
link on which the vehicle will be by then, in the time of service, and when what it had to do before is
over. A commitment continues an itinerary if the way to the pickup leads from where the vehicle will be to
where the request is (`ScheduledFleet.Extends.commit`).
-/

namespace RideDispatch

/-- Four tasks are a ride for a request that begins on a link: the drive to the pickup, the stop there, the
drive to the destination and the stop there, each of which begins when the one before ends. -/
structure IsRide (r : Request) (first : LinkId) (tasks : List Task) : Prop where
  kinds : tasks.map Task.kind = TaskKind.all
  owner : ∀ t ∈ tasks, t.request = r.id ∧ t.passenger = r.passenger
  places : tasks.map Task.endPlace = [r.origin, r.origin, r.destination, r.destination]
  /-- The first and the last link of each task; a stop has none. -/
  links : tasks.map (fun t => (t.links.head?, t.links.getLast?)) =
    [(some first, some r.origin.link), (none, none),
      (some r.origin.link, some r.destination.link), (none, none)]
  forward : ∀ t ∈ tasks, t.beginTime ≤ t.endTime
  contiguous : tasks.IsChain fun t t' => t.endTime = t'.beginTime

/-- The tasks that a cycle at a moment appends to those of a vehicle. What is `excused` of the earlier tasks
may still last when a ride begins. -/
inductive Itinerary (known : Request → Prop) (excused : Task → Prop) (now : Time) (x : Vehicle) :
    List Task → Prop
  | idle : Itinerary known excused now x []
  | ride {r : Request} {tasks rest : List Task} {first : Task} :
    Itinerary known excused now x tasks →
    known r →
    IsRide r ({ x with tasks := x.tasks ++ tasks } : Vehicle).finalPlace.link (first :: rest) →
    now ≤ first.beginTime →
    x.serviceBegin ≤ first.beginTime →
    first.beginTime < x.serviceEnd →
    (∀ t ∈ x.tasks ++ tasks, t.endTime ≤ first.beginTime ∨ excused t) →
    Itinerary known excused now x (tasks ++ first :: rest)

section Itinerary

variable {known : Request → Prop} {excused : Task → Prop} {now : Time} {x : Vehicle}

/-- Where a vehicle will be in the end depends on its first tasks only by where they lead. -/
lemma Vehicle.finalPlace_append (x : Vehicle) (early late : List Task) :
    ({ x with tasks := early ++ late } : Vehicle).finalPlace =
      ({ x with place := ({ x with tasks := early } : Vehicle).finalPlace, tasks := late } :
        Vehicle).finalPlace := by
  unfold finalPlace
  simp only [List.getLast?_append]
  cases late.getLast? <;> rfl

/-- An itinerary continues the tasks that have been retired, too, as long as they are over by then or
excused. -/
lemma Itinerary.of_retired {start : Vehicle} {gone tasks : List Task}
    (h : Itinerary known excused now x tasks) (serviceBegin : x.serviceBegin = start.serviceBegin)
    (serviceEnd : x.serviceEnd = start.serviceEnd)
    (place : x.place = ({ start with tasks := gone } : Vehicle).finalPlace)
    (elapsed : ∀ t ∈ gone, t.endTime ≤ now ∨ excused t) :
    Itinerary known excused now { start with tasks := gone ++ x.tasks } tasks := by
  induction h with
  | idle => exact .idle
  | @ride r tasks rest first _ listed ride late begun serves after ih =>
    refine .ride ih listed ?_ late (serviceBegin ▸ begun) (serviceEnd ▸ serves) ?_
    · have same : ({ start with tasks := gone ++ x.tasks ++ tasks } : Vehicle).finalPlace =
          ({ x with tasks := x.tasks ++ tasks } : Vehicle).finalPlace := by
        rw [List.append_assoc, Vehicle.finalPlace_append, ← place]
        rfl
      rw [same]
      exact ride
    · intro t member
      rw [List.append_assoc] at member
      rcases List.mem_append.mp member with early | member
      · exact (elapsed t early).imp_left fun ended => Time.le_trans ended late
      · exact after t member

end Itinerary

namespace ScheduledFleet

variable {f f' base : ScheduledFleet} {id : VehicleId} {now : Time} {r : Request} {pickup : Route}
variable {known : Request → Prop} {excused : Task → Prop}

/-- The tasks that a commitment appends are a ride. -/
lemma isRide_ride {occupied : Route} {start : Time} {first : LinkId}
    (there : pickup.Leads first r.origin.link)
    (onward : occupied.Leads r.origin.link r.destination.link) :
    IsRide r first (f.ride r pickup occupied start) where
  kinds := rfl
  owner := by simp [ride]
  places := rfl
  links := by simp [ride, there.departs, there.arrives, onward.departs, onward.arrives]
  forward t member := ((orderly_ride f r pickup occupied start).1 t member).2
  contiguous := by simp [ride]

/-- A fleet with the same vehicles, each of which has the tasks that it had before and then an itinerary. -/
structure Extends (base f : ScheduledFleet) (known : Request → Prop) (excused : Task → Prop)
    (now : Time) : Prop where
  unknown : ∀ v, base.vehicle? v = none → f.vehicle? v = none
  continues : ∀ v x, base.vehicle? v = some x → ∃ tasks,
    f.vehicle? v = some { x with tasks := x.tasks ++ tasks } ∧ Itinerary known excused now x tasks

lemma Extends.refl : base.Extends base known excused now where
  unknown _ absent := absent
  continues v x found := ⟨[], by rwa [List.append_nil], .idle⟩

/-- A commitment continues the itinerary of its vehicle. -/
lemma Extends.commit {n : Nat} (h : base.Extends f known excused now) (orderly : f.Orderly)
    (ways : f.router.Leads) (listed : known r) (serves : f.isOutOfService id now = false)
    (there : ∀ x, f.vehicle? id = some x → pickup.Leads x.finalPlace.link r.origin.link)
    (committed : f.commit id (r.tried n) pickup now = .ok f') :
    base.Extends f' known excused now := by
  obtain ⟨x', occupied, start, found', begins, inService, way, rfl⟩ := commit_eq_ok committed
  constructor
  case unknown =>
    intro v absent
    have before := h.unknown v absent
    rw [vehicle?_insert, if_neg]
    · exact before
    · rintro rfl
      rw [before] at found'
      cases found'
  case continues =>
    intro v x found
    obtain ⟨tasks, now_, itinerary⟩ := h.continues v x found
    rw [vehicle?_insert]
    by_cases same : id = v
    · subst same
      obtain rfl : x' = { x with tasks := x.tasks ++ tasks } := Option.some.inj (found'.symm.trans now_)
      rw [if_pos rfl]
      refine ⟨tasks ++ f.ride (r.tried n) pickup occupied start, by simp, ?_⟩
      have ride : IsRide r _ (f.ride (r.tried n) pickup occupied start) :=
        { isRide_ride (r := r.tried n) (there _ found') (ways _ _ _ _ way) with }
      simp only [Time.toNat_max, Time.ext_iff] at begins
      have begun : x.serviceBegin ≤ now := by
        unfold isOutOfService at serves
        rw [show f.vehicles[id]? = _ from found'] at serves
        simp only [Vehicle.isOutOfService, decide_eq_false_iff_not, not_or, Time.lt_iff] at serves
        exact Time.le_iff.mpr (Nat.not_lt.mp serves.1)
      have late : now ≤ start := by
        rw [Time.le_iff]
        omega
      have done : ({ x with tasks := x.tasks ++ tasks } : Vehicle).busyUntil ≤ start := by
        rw [Time.le_iff]
        omega
      refine .ride itinerary listed ride late (Time.le_trans begun late) inService ?_
      intro t member
      exact .inl (Time.le_trans ((orderly id _ found').le_busyUntil member) done)
    · rw [if_neg same]
      exact ⟨tasks, now_, itinerary⟩

end ScheduledFleet

end RideDispatch

import RideDispatch.Proofs.Duty

/-!
# Schedules

A commitment appends a ride to the schedule of its vehicle, beginning where and when the vehicle is done
with what it has to do (`ScheduledFleet.commit_eq_ok`). So schedules stay `Orderly`: no task ends before it
begins, and none begins before those in front of it have ended. What is retired of an orderly schedule is
just what is over (`Vehicle.mem_retire`), and it changes nothing about where the vehicle will be in the
end (`Vehicle.finalPlace_retire`).
-/

namespace RideDispatch

namespace Time

variable {a b c : Time}

lemma le_refl (a : Time) : a ≤ a := le_iff.mpr (Nat.le_refl _)

lemma le_trans (first : a ≤ b) (second : b ≤ c) : a ≤ c := by
  rw [le_iff] at *
  omega

lemma le_add (a b : Time) : a ≤ a + b := by
  have bound := a.toNat_le
  rw [le_iff, toNat_add]
  omega

end Time

namespace Vehicle

/-- No task ends before it begins, and none begins before those in front of it have ended. -/
structure Orderly (x : Vehicle) : Prop where
  forward : ∀ t ∈ x.tasks, t.beginTime ≤ t.endTime
  apart : x.tasks.Pairwise fun t t' => t.endTime ≤ t'.beginTime

variable {x : Vehicle} {t : Task} {now : Time}

/-- An orderly vehicle is busy until the last of its tasks has ended. -/
lemma Orderly.le_busyUntil (h : x.Orderly) (member : t ∈ x.tasks) : t.endTime ≤ x.busyUntil := by
  unfold busyUntil
  cases last : x.tasks.getLast? with
  | none =>
    rw [List.getLast?_eq_none_iff.mp last] at member
    cases member
  | some final =>
    obtain ⟨init, split_⟩ := List.getLast?_eq_some_iff.mp last
    have apart := h.apart
    rw [split_] at apart member
    rcases List.mem_append.mp member with early | same
    · have before := (List.pairwise_append.mp apart).2.2 t early final List.mem_cons_self
      exact Time.le_trans before (h.forward final (List.mem_of_getLast? last))
    · rw [List.mem_singleton.mp same]
      exact Time.le_refl _

/-- In an orderly schedule the tasks that are over stand in front of the others. -/
lemma Orderly.split_at (h : x.Orderly) (now : Time) :
    (x.tasks.takeWhile fun t => t.endTime ≤ now) = (x.tasks.filter fun t => t.endTime ≤ now) ∧
    (x.tasks.dropWhile fun t => t.endTime ≤ now) = x.tasks.filter fun t => ¬ t.endTime ≤ now := by
  have closed : x.tasks.Pairwise fun t t' => t'.endTime ≤ now → t.endTime ≤ now :=
    h.apart.imp_of_mem fun _ later before ended => Time.le_trans before (Time.le_trans (h.forward _ later) ended)
  generalize x.tasks = tasks at closed
  induction closed with
  | nil => exact ⟨rfl, rfl⟩
  | @cons first rest earlier _ ih =>
    by_cases elapsed : first.endTime ≤ now
    · simp [elapsed, ih]
    · have on : ∀ t ∈ rest, ¬ t.endTime ≤ now := fun t member ended => elapsed (earlier t member ended)
      have none_ : (rest.filter fun t => t.endTime ≤ now) = [] := by simpa using on
      have all : (rest.filter fun t => !decide (t.endTime ≤ now)) = rest := by simpa using on
      simp [elapsed, none_, all]

/-- Retiring leaves the tasks of an orderly schedule that are not over. -/
lemma Orderly.mem_retire (h : x.Orderly) :
    t ∈ (x.retire now).2.tasks ↔ t ∈ x.tasks ∧ ¬ t.endTime ≤ now := by
  show t ∈ x.tasks.dropWhile _ ↔ _
  rw [(h.split_at now).2, List.mem_filter, decide_eq_true_iff]

lemma Orderly.retire (h : x.Orderly) : (x.retire now).2.Orderly where
  forward t member := h.forward t ((List.dropWhile_sublist _).subset member)
  apart := h.apart.sublist (List.dropWhile_sublist _)

/-- Retiring tasks does not change where the vehicle will be in the end. -/
lemma finalPlace_retire (x : Vehicle) (now : Time) : (x.retire now).2.finalPlace = x.finalPlace := by
  have parts := List.takeWhile_append_dropWhile (p := fun t : Task => decide (t.endTime ≤ now))
    (l := x.tasks)
  unfold finalPlace retire
  simp only
  conv_rhs => rw [← parts, List.getLast?_append]
  cases (x.tasks.dropWhile fun t => decide (t.endTime ≤ now)).getLast? <;> rfl

/-- After retiring tasks a vehicle is busy as long as before, or not at all. -/
lemma busyUntil_retire_le (x : Vehicle) (now : Time) : (x.retire now).2.busyUntil ≤ x.busyUntil := by
  have parts := List.takeWhile_append_dropWhile (p := fun t : Task => decide (t.endTime ≤ now))
    (l := x.tasks)
  unfold busyUntil retire
  simp only
  conv_rhs => rw [← parts, List.getLast?_append]
  cases (x.tasks.dropWhile fun t => decide (t.endTime ≤ now)).getLast? with
  | none => exact Time.le_iff.mpr (Nat.zero_le _)
  | some => exact Time.le_refl _

end Vehicle

namespace ScheduledFleet

variable {f f' : ScheduledFleet} {v id : VehicleId} {now : Time} {request : Request} {pickup : Route}

lemma vehicle?_insert (x : Vehicle) (wakeups : List (VehicleId × Time)) :
    { f with vehicles := f.vehicles.insert id x, wakeups := wakeups }.vehicle? v =
      if id = v then some x else f.vehicle? v :=
  Table.getElem?_insert

lemma vehicle?_addVehicle {place : Place} {serviceBegin serviceEnd : Time}
    (added : f.addVehicle id place serviceBegin serviceEnd = .ok f') :
    f'.vehicle? v = if id = v then some ⟨id, serviceBegin, serviceEnd, place, []⟩ else f.vehicle? v := by
  obtain ⟨_, rfl⟩ := addVehicle_eq_ok added
  exact vehicle?_insert _ f.wakeups

lemma vehicle?_advance : (f.advance id now).2.vehicle? v =
    if id = v then (f.vehicle? v).map fun x => (x.retire now).2 else f.vehicle? v := by
  unfold advance
  cases found : f.vehicles[id]? with
  | none =>
    by_cases same : id = v
    · subst same
      rw [if_pos rfl, show f.vehicle? id = none from found]
      rfl
    · rw [if_neg same]
  | some x =>
    rw [show ({ f with vehicles := f.vehicles.insert id (x.retire now).2 } : ScheduledFleet).vehicle? v =
      if id = v then some (x.retire now).2 else f.vehicle? v from Table.getElem?_insert]
    by_cases same : id = v
    · subst same
      rw [if_pos rfl, if_pos rfl, show f.vehicle? id = some x from found]
      rfl
    · rw [if_neg same, if_neg same]

/-- The tasks of a ride that begins at `start` are orderly. -/
lemma orderly_ride (f : ScheduledFleet) (request : Request) (pickup occupied : Route) (start : Time) :
    (∀ t ∈ f.ride request pickup occupied start, start ≤ t.beginTime ∧ t.beginTime ≤ t.endTime) ∧
      (f.ride request pickup occupied start).Pairwise fun t t' => t.endTime ≤ t'.beginTime := by
  have first := Time.le_add start pickup.travelTime
  have second := Time.le_add (start + pickup.travelTime) f.pickupDuration
  have third := Time.le_add (start + pickup.travelTime + f.pickupDuration) occupied.travelTime
  have fourth := Time.le_add (start + pickup.travelTime + f.pickupDuration + occupied.travelTime)
    f.dropoffDuration
  simp only [Time.le_iff] at *
  simp only [ride, List.forall_mem_cons, List.not_mem_nil, false_imp_iff, implies_true, and_true,
    List.pairwise_cons, List.Pairwise.nil]
  omega

/-- Every schedule is orderly. -/
def Orderly (f : ScheduledFleet) : Prop := ∀ v x, f.vehicle? v = some x → x.Orderly

lemma orderly_empty (router : Router) (pickupDuration dropoffDuration : Time) :
    (empty router pickupDuration dropoffDuration).Orderly := by
  intro v x found
  rw [vehicle?_empty] at found
  cases found

lemma Orderly.commit (h : f.Orderly) (committed : f.commit id request pickup now = .ok f') :
    f'.Orderly := by
  obtain ⟨x, occupied, start, found, begins, _, _, rfl⟩ := commit_eq_ok committed
  intro v y same
  rw [vehicle?_insert] at same
  split at same
  · cases same
    have own := h id x found
    obtain ⟨forward, apart⟩ := orderly_ride f request pickup occupied start
    have late : x.busyUntil ≤ start := by
      rw [begins, Time.le_iff, Time.toNat_max]
      exact Nat.le_max_right _ _
    constructor
    · intro t member
      rcases List.mem_append.mp member with old | new
      · exact own.forward t old
      · exact (forward t new).2
    · refine List.pairwise_append.mpr ⟨own.apart, apart, ?_⟩
      intro t old t' new
      exact Time.le_trans (own.le_busyUntil old) (Time.le_trans late (forward t' new).1)
  · exact h v y same

lemma Orderly.advance (h : f.Orderly) : (f.advance id now).2.Orderly := by
  intro v y found
  rw [vehicle?_advance] at found
  split at found
  · obtain ⟨x, before, rfl⟩ := Option.map_eq_some_iff.mp found
    exact (h v x before).retire
  · exact h v y found

lemma Orderly.addVehicle (h : f.Orderly) {place : Place} {serviceBegin serviceEnd : Time}
    (added : f.addVehicle id place serviceBegin serviceEnd = .ok f') : f'.Orderly := by
  intro v y found
  rw [vehicle?_addVehicle added] at found
  split at found
  · cases found
    exact ⟨List.forall_mem_nil _, .nil⟩
  · exact h v y found

end ScheduledFleet

end RideDispatch

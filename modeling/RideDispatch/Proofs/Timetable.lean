import RideDispatch.Proofs.Index
import RideDispatch.Proofs.Schedule

/-!
# Timetables

A fleet whose vehicles join, are committed and retire tasks in whatever order and at whatever times, which may
also go backwards (`FleetAction`), keeps every schedule orderly (`ScheduledFleet.Orderly.act`). So it suffices to
look at the last task of a vehicle to know whether it is idle (`Vehicle.Orderly.isFree_iff`), and there is one
task at most that a vehicle is at (`Vehicle.Orderly.filter_current`).
-/

namespace RideDispatch

/-- What can be done to a fleet. -/
inductive FleetAction where
  | addVehicle (id : VehicleId) (place : Place) (serviceBegin serviceEnd : Time)
  | commit (id : VehicleId) (request : Request) (pickup : Route) (now : Time)
  | advance (id : VehicleId) (now : Time)

/-- Where no two elements have a property, the first one that has it is the only one. -/
lemma filter_eq_toList_find? {α : Type} {p : α → Bool} {l : List α}
    (apart : l.Pairwise fun a b => p a = true → p b = false) : l.filter p = (l.find? p).toList := by
  induction apart with
  | nil => rfl
  | @cons a l others _ ih =>
    cases own : p a with
    | true =>
      have none_ : l.filter p = [] := List.filter_eq_nil_iff.mpr fun b member => by simp [others b member own]
      rw [List.filter_cons_of_pos own, List.find?_cons_of_pos own, none_]
      rfl
    | false =>
      have not_ : ¬ p a = true := by simp [own]
      rw [List.filter_cons_of_neg not_, List.find?_cons_of_neg not_, ih]

namespace Vehicle

variable {x : Vehicle} {now : Time}

/-- A vehicle is at one task at most. -/
lemma Orderly.filter_current (h : x.Orderly) (now : Time) :
    (x.tasks.filter fun t => t.beginTime ≤ now ∧ now < t.endTime) = (x.currentTask? now).toList := by
  apply filter_eq_toList_find?
  refine h.apart.imp fun before current => ?_
  have lasts := (of_decide_eq_true current).2
  exact decide_eq_false fun begun => Time.not_le.mpr lasts (Time.le_trans before begun.1)

/-- An orderly vehicle is free once its last task is over. -/
lemma Orderly.isFree_iff (h : x.Orderly) : x.isFree now = true ↔ x.busyUntil ≤ now := by
  constructor
  · exact busyUntil_le_of_isFree
  · intro late
    refine List.all_eq_true.mpr fun t member => decide_eq_true ?_
    exact Time.le_trans (h.le_busyUntil member) late

lemma busyUntil_eq (x : Vehicle) :
    x.tasks = [] ∧ x.busyUntil = 0 ∨ ∃ t ∈ x.tasks, t.endTime = x.busyUntil := by
  unfold busyUntil
  cases last : x.tasks.getLast? with
  | none => exact .inl ⟨List.getLast?_eq_none_iff.mp last, rfl⟩
  | some t => exact .inr ⟨t, List.mem_of_getLast? last, rfl⟩

lemma isOutOfService_eq_false : x.isOutOfService now = false ↔ x.serviceBegin ≤ now ∧ now < x.serviceEnd := by
  unfold isOutOfService
  rw [decide_eq_false_iff_not, not_or, Time.not_lt, Time.not_le]

end Vehicle

namespace ScheduledFleet

variable {f : ScheduledFleet} {v : VehicleId} {now : Time}

/-- What an action leaves; one that is refused changes nothing. -/
def act (f : ScheduledFleet) : FleetAction → ScheduledFleet
  | .addVehicle id place serviceBegin serviceEnd =>
    (f.addVehicle id place serviceBegin serviceEnd).toOption.getD f
  | .commit id request pickup now => (f.commit id request pickup now).toOption.getD f
  | .advance id now => (f.advance id now).2

/-- What some actions leave, one after the other. -/
def after (f : ScheduledFleet) (actions : List FleetAction) : ScheduledFleet := actions.foldl act f

/-- What an action can do: nothing, where it is refused, or what it says. -/
lemma act_cases (f : ScheduledFleet) (action : FleetAction) :
    f.act action = f ∨
    (∃ id place serviceBegin serviceEnd, f.addVehicle id place serviceBegin serviceEnd = .ok (f.act action)) ∨
    (∃ id request pickup now, f.commit id request pickup now = .ok (f.act action)) ∨
    ∃ id now, f.act action = (f.advance id now).2 := by
  cases action with
  | addVehicle id place serviceBegin serviceEnd =>
    simp only [act]
    cases added : f.addVehicle id place serviceBegin serviceEnd with
    | error fault => exact .inl rfl
    | ok f' => exact .inr (.inl ⟨id, place, serviceBegin, serviceEnd, added⟩)
  | commit id request pickup now =>
    simp only [act]
    cases committed : f.commit id request pickup now with
    | error fault => exact .inl rfl
    | ok f' => exact .inr (.inr (.inl ⟨id, request, pickup, now, committed⟩))
  | advance id now => exact .inr (.inr (.inr ⟨id, now, rfl⟩))

/-- No action puts a schedule out of order. -/
lemma Orderly.act (h : f.Orderly) (action : FleetAction) : (f.act action).Orderly := by
  obtain same | ⟨_, _, _, _, added⟩ | ⟨_, _, _, _, committed⟩ | ⟨_, _, advanced⟩ := f.act_cases action
  · rw [same]
    exact h
  · exact h.addVehicle added
  · exact h.commit committed
  · rw [advanced]
    exact h.advance

lemma Orderly.after (h : f.Orderly) (actions : List FleetAction) : (f.after actions).Orderly :=
  List.foldlRecOn actions ScheduledFleet.act h fun _ h action _ => h.act action

/-- Whether a vehicle is idle shows from its last task. -/
lemma Orderly.isIdle_iff (h : f.Orderly) : f.isIdle v now = true ↔
    ∃ x, f.vehicle? v = some x ∧ (x.serviceBegin ≤ now ∧ now < x.serviceEnd) ∧ x.busyUntil ≤ now := by
  rw [ScheduledFleet.isIdle_iff]
  refine exists_congr fun x => and_congr_right fun found => ?_
  rw [Vehicle.isOutOfService_eq_false, (h v x found).isFree_iff]

/-- An idle vehicle could start at once from where its tasks have led it. -/
lemma earliestIdleness_eq (idle : f.isIdle v now = true) :
    ∃ x, f.vehicle? v = some x ∧ f.earliestIdleness v now = some ⟨x.finalPlace, now⟩ := by
  obtain ⟨x, found, serves, free⟩ := ScheduledFleet.isIdle_iff.mp idle
  refine ⟨x, found, ?_⟩
  unfold earliestIdleness
  rw [show f.vehicles[v]? = some x from found]
  simp only
  rw [if_neg (Vehicle.serves_of_isFree serves free), Vehicle.availableAt_of_isFree serves free]

/-- Whatever is done to a fleet, the tasks of its vehicles follow each other, so that a vehicle is busy until the
latest of their ends and at one of them at most; it is idle just if it serves and is busy no longer, and then
it could start at once from where its tasks have led it. -/
theorem timetables (router : Router) (pickupDuration dropoffDuration : Time) (actions : List FleetAction)
    (v : VehicleId) :
    let f := (empty router pickupDuration dropoffDuration).after actions
    (∀ x, f.vehicle? v = some x →
      (∀ t ∈ x.tasks, t.beginTime ≤ t.endTime) ∧
      x.tasks.Pairwise (fun t t' => t.endTime ≤ t'.beginTime) ∧
      (∀ t ∈ x.tasks, t.endTime ≤ x.busyUntil) ∧
      (x.tasks = [] ∧ x.busyUntil = 0 ∨ ∃ t ∈ x.tasks, t.endTime = x.busyUntil) ∧
      ∀ now, (x.tasks.filter fun t => t.beginTime ≤ now ∧ now < t.endTime) = (x.currentTask? now).toList) ∧
    ∀ now,
      (f.isIdle v now = true ↔
        ∃ x, f.vehicle? v = some x ∧ (x.serviceBegin ≤ now ∧ now < x.serviceEnd) ∧ x.busyUntil ≤ now) ∧
      (f.isIdle v now = true →
        ∃ x, f.vehicle? v = some x ∧ f.earliestIdleness v now = some ⟨x.finalPlace, now⟩) := by
  intro f
  have orderly : f.Orderly := (orderly_empty router pickupDuration dropoffDuration).after actions
  refine ⟨?_, fun now => ⟨orderly.isIdle_iff, earliestIdleness_eq⟩⟩
  intro x found
  have own := orderly v x found
  exact ⟨own.forward, own.apart, fun t member => own.le_busyUntil member, x.busyUntil_eq, own.filter_current⟩

end ScheduledFleet

end RideDispatch

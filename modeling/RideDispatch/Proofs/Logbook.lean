import RideDispatch.Proofs.Diary
import RideDispatch.Proofs.Timetable

/-!
# Logbooks

Whatever is done to a fleet, the tasks that a vehicle has been given are those that have been reported as over
and then those that it has still to do, in the order in which they were given (`Service.Recorded.after`). An
advance retires the tasks that are over and no others (`Vehicle.Orderly.retire_eq`), so it makes no difference
whether a vehicle is advanced in one go or in two (`ScheduledFleet.advance_advance`).
-/

namespace RideDispatch

namespace Vehicle

variable {x : Vehicle} {now earlier later : Time} {ended left : List Task}

lemma retire_eq_of (taken : (x.tasks.takeWhile fun t => t.endTime ≤ now) = ended)
    (dropped : (x.tasks.dropWhile fun t => t.endTime ≤ now) = left) :
    x.retire now = (ended.map x.report,
      { x with place := ({ x with tasks := ended } : Vehicle).finalPlace, tasks := left }) := by
  subst taken dropped
  rfl

/-- An orderly vehicle retires all tasks that are over, wherever they stand. -/
lemma Orderly.retire_eq (h : x.Orderly) (now : Time) :
    x.retire now = ((x.tasks.filter fun t => t.endTime ≤ now).map x.report,
      { x with
        place := ({ x with tasks := x.tasks.filter fun t => t.endTime ≤ now } : Vehicle).finalPlace
        tasks := x.tasks.filter fun t => ¬ t.endTime ≤ now }) :=
  retire_eq_of (h.split_at now).1 (h.split_at now).2

/-- What is over at a moment is over later. -/
lemma retire_retire (x : Vehicle) (late : earlier ≤ later) :
    (x.retire earlier).1 ++ ((x.retire earlier).2.retire later).1 = (x.retire later).1 ∧
      ((x.retire earlier).2.retire later).2 = (x.retire later).2 := by
  let early := x.tasks.takeWhile fun t => t.endTime ≤ earlier
  let left := x.tasks.dropWhile fun t => t.endTime ≤ earlier
  let more := left.takeWhile fun t => t.endTime ≤ later
  have parts : x.tasks = early ++ left := List.takeWhile_append_dropWhile.symm
  have ended : ∀ t ∈ early, decide (t.endTime ≤ later) = true := by
    intro t member
    have past := of_decide_eq_true (List.all_eq_true.mp List.all_takeWhile t member)
    exact decide_eq_true (Time.le_trans past late)
  have taken : (x.tasks.takeWhile fun t => t.endTime ≤ later) = early ++ more := by
    rw [parts, List.takeWhile_append_of_pos ended]
  have dropped : (x.tasks.dropWhile fun t => t.endTime ≤ later) =
      left.dropWhile fun t => t.endTime ≤ later := by
    rw [parts, List.dropWhile_append_of_pos ended]
  rw [retire_eq_of taken dropped, finalPlace_append, List.map_append]
  exact ⟨rfl, rfl⟩

end Vehicle

/-- An action that is an errand as well. -/
def FleetAction.errand? : FleetAction → Option Errand
  | .addVehicle id place serviceBegin serviceEnd => some (.addVehicle id place serviceBegin serviceEnd)
  | .commit _ _ _ _ => none
  | .advance id now => some (.advance id now)

lemma FleetAction.mem_of_errand {actions : List FleetAction} {v : VehicleId} {now : Time}
    (h : .advance v now ∈ actions.filterMap FleetAction.errand?) : .advance v now ∈ actions := by
  obtain ⟨action, member, same⟩ := List.mem_filterMap.mp h
  cases action with
  | addVehicle id place serviceBegin serviceEnd => cases same
  | commit id request pickup now => cases same
  | advance id now =>
    cases same
    exact member

namespace ScheduledFleet

variable {f f' : ScheduledFleet} {v id : VehicleId} {now : Time} {request : Request} {pickup : Route}

/-! ## What is given and what is reported -/

/-- The tasks of the ride that is asked of a vehicle, if there is a way to the destination. -/
def chain (f : ScheduledFleet) (x : Vehicle) (request : Request) (pickup : Route) (now : Time) : List Task :=
  let start := max (max pickup.departure now) x.busyUntil
  match f.router.route? request.origin request.destination (start + pickup.travelTime + f.pickupDuration) with
  | some occupied => f.ride request pickup occupied start
  | none => []

/-- The tasks that an action gives a vehicle: those of the ride to which it is committed. -/
def given (f : ScheduledFleet) (v : VehicleId) : FleetAction → List Task
  | .commit id request pickup now =>
    match f.vehicle? id, f.commit id request pickup now with
    | some x, .ok _ => if id = v then f.chain x request pickup now else []
    | _, _ => []
  | _ => []

/-- The tasks that an action reports as over. -/
def reported (f : ScheduledFleet) : FleetAction → List TaskEnded
  | .advance id now => (f.advance id now).1
  | _ => []

/-- The tasks that actions give a vehicle, one after the other. -/
def allGiven (f : ScheduledFleet) (v : VehicleId) : List FleetAction → List Task
  | [] => []
  | action :: rest => f.given v action ++ (f.act action).allGiven v rest

/-- The tasks that actions report as over, one after the other. -/
def allReported (f : ScheduledFleet) : List FleetAction → List TaskEnded
  | [] => []
  | action :: rest => f.reported action ++ (f.act action).allReported rest

lemma allReported_append (f : ScheduledFleet) (actions actions' : List FleetAction) :
    f.allReported (actions ++ actions') = f.allReported actions ++ (f.after actions).allReported actions' := by
  induction actions generalizing f with
  | nil => rfl
  | cons action actions ih =>
    show f.reported action ++ (f.act action).allReported (actions ++ actions') = _
    rw [ih, ← List.append_assoc]
    rfl

/-- A commitment appends the tasks that it gives to those that the vehicle has. -/
lemma commit_gives (committed : f.commit id request pickup now = .ok f') :
    ∃ x, f.vehicle? id = some x ∧
      f'.vehicle? id = some { x with tasks := x.tasks ++ f.given id (.commit id request pickup now) } := by
  obtain ⟨x, occupied, start, found, begins, _, way, same⟩ := commit_eq_ok committed
  have gives : f.given id (.commit id request pickup now) = f.ride request pickup occupied start := by
    subst begins
    unfold given
    simp only [found, committed, if_true]
    unfold chain
    simp only [way]
  refine ⟨x, found, ?_⟩
  rw [gives, same, vehicle?_insert, if_pos rfl]

lemma given_of_refused {e : CommitError} (refused : f.commit id request pickup now = .error e) :
    f.given v (.commit id request pickup now) = [] := by
  unfold given
  simp only [refused]
  cases f.vehicle? id <;> rfl

lemma given_of_ne (ne : id ≠ v) : f.given v (.commit id request pickup now) = [] := by
  unfold given
  simp only [if_neg ne]
  split <;> rfl

lemma Keyed.act (h : f.Keyed) (action : FleetAction) : (f.act action).Keyed := by
  obtain same | ⟨_, _, _, _, added⟩ | ⟨_, _, _, _, committed⟩ | ⟨_, _, advanced⟩ := f.act_cases action
  · rw [same]
    exact h
  · exact h.addVehicle added
  · exact h.commit committed
  · rw [advanced]
    exact h.advance

lemma Keyed.after (h : f.Keyed) (actions : List FleetAction) : (f.after actions).Keyed :=
  List.foldlRecOn actions ScheduledFleet.act h fun _ h action _ => h.act action

lemma advance_eq_of_found {x : Vehicle} (found : f.vehicle? v = some x) (now : Time) :
    f.advance v now = ((x.retire now).1, { f with vehicles := f.vehicles.insert v (x.retire now).2 }) := by
  simp only [advance, show f.vehicles[v]? = some x from found]

/-- It makes no difference whether a vehicle is advanced in one go or in two. -/
lemma advance_advance (f : ScheduledFleet) (v : VehicleId) {earlier later : Time} (late : earlier ≤ later) :
    (f.advance v earlier).1 ++ ((f.advance v earlier).2.advance v later).1 = (f.advance v later).1 ∧
      ((f.advance v earlier).2.advance v later).2 = (f.advance v later).2 := by
  cases found : f.vehicle? v with
  | none =>
    have idle (now : Time) : f.advance v now = ([], f) := by
      simp only [advance, show f.vehicles[v]? = none from found]
    simp only [idle, List.append_nil, and_self]
  | some x =>
    obtain ⟨reports, left⟩ := x.retire_retire late
    let next : ScheduledFleet := { f with vehicles := f.vehicles.insert v (x.retire earlier).2 }
    have found' : next.vehicle? v = some (x.retire earlier).2 := (vehicle?_insert _ f.wakeups).trans (if_pos rfl)
    have second := advance_eq_of_found found' later
    simp only [next, Table.insert_insert, left] at second
    rw [advance_eq_of_found found, advance_eq_of_found found, second]
    exact ⟨reports, rfl⟩

end ScheduledFleet

/-! ## The record of a vehicle -/

namespace Service.Recorded

variable {errands : List Errand} {v : VehicleId} {diary : List Task} {retired : List TaskEnded}
variable {f : ScheduledFleet}

/-- Every action keeps the record of a vehicle, in which any task may have been waiting at any time. -/
lemma action (h : Recorded (fun _ _ => True) v errands diary retired (f.vehicle? v)) (keyed : f.Keyed)
    (action : FleetAction) :
    Recorded (fun _ _ => True) v (errands ++ [action].filterMap FleetAction.errand?) (diary ++ f.given v action)
      (retired ++ f.reported action) ((f.act action).vehicle? v) := by
  cases action with
  | addVehicle id place serviceBegin serviceEnd =>
    rw [show f.given v (.addVehicle id place serviceBegin serviceEnd) = [] from rfl,
      show f.reported (.addVehicle id place serviceBegin serviceEnd) = [] from rfl,
      List.append_nil, List.append_nil]
    exact h.joining
  | advance id now =>
    rw [show f.given v (.advance id now) = [] from rfl, List.append_nil]
    exact h.advancing (fun _ _ _ _ => trivial) keyed
  | commit id request pickup now =>
    rw [show f.reported (.commit id request pickup now) = [] from rfl, List.append_nil,
      show [FleetAction.commit id request pickup now].filterMap FleetAction.errand? = [] from rfl, List.append_nil]
    cases committed : f.commit id request pickup now with
    | error fault =>
      have same : f.act (.commit id request pickup now) = f := by
        unfold ScheduledFleet.act
        simp only [committed]
        rfl
      rw [ScheduledFleet.given_of_refused committed, List.append_nil, same]
      exact h
    | ok f' =>
      have next : f.act (.commit id request pickup now) = f' := by
        unfold ScheduledFleet.act
        simp only [committed]
        rfl
      rw [next]
      by_cases same : id = v
      · subst same
        obtain ⟨x, found, gives⟩ := ScheduledFleet.commit_gives committed
        rw [gives]
        rw [found] at h
        exact h.append _
      · rw [ScheduledFleet.given_of_ne same, List.append_nil, ScheduledFleet.vehicle?_commit same committed]
        exact h

/-- So do all actions, one after the other. -/
lemma after (h : Recorded (fun _ _ => True) v errands diary retired (f.vehicle? v)) (keyed : f.Keyed)
    (actions : List FleetAction) :
    Recorded (fun _ _ => True) v (errands ++ actions.filterMap FleetAction.errand?) (diary ++ f.allGiven v actions)
      (retired ++ f.allReported actions) ((f.after actions).vehicle? v) := by
  induction actions generalizing f errands diary retired with
  | nil =>
    simp only [List.filterMap_nil, ScheduledFleet.allGiven, ScheduledFleet.allReported, List.append_nil]
    exact h
  | cons action actions ih =>
    have next := ih (h.action keyed action) (keyed.act action)
    rw [List.append_assoc, List.append_assoc, List.append_assoc, ← List.filterMap_append] at next
    exact next

/-- A vehicle has reported the first tasks of its diary, each of them over when it was, and the last of them is where
it is. -/
lemma exists_gone {x : Vehicle} (h : Recorded (fun _ _ => True) v errands diary retired (some x)) :
    ∃ gone, diary = gone ++ x.tasks ∧ retired.filter (fun t => t.vehicle = v) = gone.map x.report ∧
      (∀ t, gone.getLast? = some t → x.place = t.endPlace) ∧
      ∀ t ∈ gone, ∃ time, .advance v time ∈ errands ∧ t.endTime ≤ time := by
  cases h with
  | present start gone joined parts reports place elapsed =>
    refine ⟨gone, parts, reports, ?_, ?_⟩
    · intro t last
      rw [place]
      unfold Vehicle.finalPlace
      simp only [last]
    · intro t member
      obtain ⟨time, early, late, rfl, _, done⟩ := elapsed t member
      exact ⟨time, by simp, done⟩

end Service.Recorded

namespace ScheduledFleet

/-- Every task that a vehicle is given is retired once and in order. What has been reported of it so far are the
first tasks that it has been given, which are followed by those that it has still to do; it is where the last one
that was retired has led it. An advance retires those of its tasks that are over, changes no other vehicle, and
might have been made in two; where it is the latest one, what has been reported by then are just the tasks that
are over. -/
theorem retired_in_order (router : Router) (pickupDuration dropoffDuration : Time) (actions : List FleetAction)
    (v : VehicleId) (x : Vehicle)
    (found : ((empty router pickupDuration dropoffDuration).after actions).vehicle? v = some x) :
    let first := empty router pickupDuration dropoffDuration
    let f := first.after actions
    let reports (actions : List FleetAction) := (first.allReported actions).filter fun t => t.vehicle = v
    (∃ gone, first.allGiven v actions = gone ++ x.tasks ∧ reports actions = gone.map x.report ∧
      ∀ t, gone.getLast? = some t → x.place = t.endPlace) ∧
    (∀ now,
      (f.advance v now).1 = (x.tasks.filter fun t => t.endTime ≤ now).map x.report ∧
      (f.advance v now).2.vehicle? v = some { x with
        place := ({ x with tasks := x.tasks.filter fun t => t.endTime ≤ now } : Vehicle).finalPlace
        tasks := x.tasks.filter fun t => ¬ t.endTime ≤ now } ∧
      (∀ u, v ≠ u → (f.advance v now).2.vehicle? u = f.vehicle? u) ∧
      ((∀ time, .advance v time ∈ actions → time ≤ now) →
        reports (actions ++ [.advance v now]) =
          ((first.allGiven v actions).filter fun t => t.endTime ≤ now).map x.report)) ∧
    ∀ earlier later, earlier ≤ later →
      (f.advance v earlier).1 ++ ((f.advance v earlier).2.advance v later).1 = (f.advance v later).1 ∧
      ((f.advance v earlier).2.advance v later).2 = (f.advance v later).2 := by
  intro first f reports
  have orderly : f.Orderly := (orderly_empty router pickupDuration dropoffDuration).after actions
  have keyed : f.Keyed := (keyed_empty router pickupDuration dropoffDuration).after actions
  have begun : Service.Recorded (fun _ _ => True) v [] [] [] (first.vehicle? v) := by
    rw [vehicle?_empty]
    exact .absent rfl rfl rfl
  have record := begun.after (keyed_empty router pickupDuration dropoffDuration) actions
  rw [found] at record
  obtain ⟨gone, parts, reported, place, elapsed⟩ := record.exists_gone
  have retires (now : Time) := (orderly v x found).retire_eq now
  refine ⟨⟨gone, parts, reported, place⟩, fun now => ⟨?_, ?_, ?_, ?_⟩, fun _ _ => f.advance_advance v⟩
  · rw [advance_eq_of_found found, retires]
  · rw [vehicle?_advance, if_pos rfl, found, Option.map_some, retires]
  · intro u ne
    rw [vehicle?_advance, if_neg ne]
  · intro latest
    have ended : ∀ t ∈ gone, decide (t.endTime ≤ now) = true := by
      intro t member
      obtain ⟨time, advanced, before⟩ := elapsed t member
      exact decide_eq_true (Time.le_trans before (latest time (FleetAction.mem_of_errand advanced)))
    calc
      reports (actions ++ [.advance v now]) =
          reports actions ++ (f.advance v now).1.filter fun t => t.vehicle = v := by
        show List.filter _ (first.allReported _) = _
        rw [allReported_append, List.filter_append]
        congr 2
        exact List.append_nil _
      _ = gone.map x.report ++ (x.tasks.filter fun t => t.endTime ≤ now).map x.report := by
        rw [keyed.filter_advance, if_pos rfl, advance_eq_of_found found, retires]
        exact congrArg (· ++ _) reported
      _ = ((first.allGiven v actions).filter fun t => t.endTime ≤ now).map x.report := by
        rw [show first.allGiven v actions = gone ++ x.tasks from parts, List.filter_append,
          List.filter_eq_self.mpr ended, List.map_append]

/-- A vehicle joins, is committed to two rides, and has done with the first two tasks. -/
def twoRides : List FleetAction :=
  [.addVehicle ⟨7⟩ (.onDiagonal 1) 0 .never,
    .commit ⟨7⟩ (.immediate ⟨1⟩ ⟨11⟩ (.onDiagonal 2) (.onDiagonal 3) 0 none) ⟨0, ⟨1000⟩, 0, []⟩ 0,
    .commit ⟨7⟩ (.immediate ⟨2⟩ ⟨12⟩ (.onDiagonal 4) (.onDiagonal 5) 0 none) ⟨0, ⟨1000⟩, 0, []⟩ 0,
    .advance ⟨7⟩ ⟨1500⟩]

theorem retired_in_order_twoRides :
    let first := empty Service.steadyRouter ⟨120⟩ ⟨60⟩
    let f := first.after twoRides
    ∃ x, f.vehicle? ⟨7⟩ = some x ∧ x.tasks.length = 6 ∧
      (first.allGiven ⟨7⟩ twoRides).map Task.endTime =
        [⟨1000⟩, ⟨1120⟩, ⟨2120⟩, ⟨2180⟩, ⟨3180⟩, ⟨3300⟩, ⟨4300⟩, ⟨4360⟩] ∧
      (∃ gone, first.allGiven ⟨7⟩ twoRides = gone ++ x.tasks) ∧
      (∀ time, .advance ⟨7⟩ time ∈ twoRides → time ≤ ⟨2180⟩) ∧
      ((first.allReported (twoRides ++ [.advance ⟨7⟩ ⟨2180⟩])).filter fun t => t.vehicle = ⟨7⟩) =
        ((first.allGiven ⟨7⟩ twoRides).filter fun t => t.endTime ≤ ⟨2180⟩).map x.report ∧
      (⟨2000⟩ : Time) ≤ ⟨2180⟩ ∧
      ((f.advance ⟨7⟩ ⟨2000⟩).2.advance ⟨7⟩ ⟨2180⟩).2 = (f.advance ⟨7⟩ ⟨2180⟩).2 := by
  intro first f
  have known : (f.vehicle? ⟨7⟩).map (fun x => x.tasks.length) = some 6 := by decide +kernel
  obtain ⟨x, found, six⟩ := Option.map_eq_some_iff.mp known
  obtain ⟨⟨gone, parts, _⟩, advances, twice⟩ :=
    retired_in_order Service.steadyRouter ⟨120⟩ ⟨60⟩ twoRides ⟨7⟩ x found
  have latest : ∀ time, .advance ⟨7⟩ time ∈ twoRides → time ≤ ⟨2180⟩ := by
    intro time member
    simp only [twoRides, List.mem_cons, List.not_mem_nil, or_false, reduceCtorEq, false_or,
      FleetAction.advance.injEq, true_and] at member
    rw [member]
    decide
  refine ⟨x, found, six, by decide +kernel, ⟨gone, parts⟩, latest, ?_, by decide, ?_⟩
  · exact (advances ⟨2180⟩).2.2.2 latest
  · exact (twice ⟨2000⟩ ⟨2180⟩ (by decide)).2

end ScheduledFleet

end RideDispatch

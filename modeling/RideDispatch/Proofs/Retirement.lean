import Mathlib.Data.List.TakeWhile
import RideDispatch.Proofs.Likeness
import RideDispatch.Proofs.Schedule

/-!
# Tasks that are retired early

Two fleets may differ in what their vehicles have retired. As long as whatever only one of them has retired
is over when they are asked (`ScheduledFleet.Retires`), they answer alike and give the same rides, so that a
dispatcher finds them `Fleet.Similar`. Retiring the tasks of a vehicle keeps two fleets so related, whether
both do it or only the second one. So nobody sees whether a vehicle has been advanced, unless it is to a
moment that lies after that of a later cycle (`Desk.retirement_unseen`). After such an advance a fleet has
forgotten rides that are still going on (`Desk.retirement_seen_backInTime`).
-/

namespace RideDispatch

/-! ## Vehicles -/

/-- What a vehicle retires is over. -/
lemma Task.over_of_mem_takeWhile {t : Task} {tasks : List Task} {time : Time}
    (member : t ∈ tasks.takeWhile fun t => t.endTime ≤ time) : t.endTime ≤ time := by
  simpa using List.mem_takeWhile_imp member

/-- The second vehicle is the first one after it has retired some more tasks, which are over whenever either
of them is asked. -/
structure Vehicle.Retires (asked : Time → Prop) (x y : Vehicle) : Prop where
  id : y.id = x.id
  serviceBegin : y.serviceBegin = x.serviceBegin
  serviceEnd : y.serviceEnd = x.serviceEnd
  finalPlace : y.finalPlace = x.finalPlace
  tasks : ∃ gone, x.tasks = gone ++ y.tasks ∧ ∀ t ∈ gone, ∀ now, asked now → t.endTime ≤ now

namespace Vehicle.Retires

variable {asked : Time → Prop} {x y : Vehicle} {now time : Time}

lemma refl (x : Vehicle) : x.Retires asked x :=
  ⟨rfl, rfl, rfl, rfl, [], rfl, List.forall_mem_nil _⟩

lemma mono {asked' : Time → Prop} (h : x.Retires asked y) (fewer : ∀ now, asked' now → asked now) :
    x.Retires asked' y := by
  obtain ⟨gone, split_, past⟩ := h.tasks
  exact { h with tasks := ⟨gone, split_, fun t member now ask => past t member now (fewer now ask)⟩ }

lemma isOutOfService (h : x.Retires asked y) : y.isOutOfService now = x.isOutOfService now := by
  unfold Vehicle.isOutOfService
  rw [h.serviceBegin, h.serviceEnd]

lemma isFree (h : x.Retires asked y) (ask : asked now) : y.isFree now = x.isFree now := by
  obtain ⟨gone, split_, past⟩ := h.tasks
  have done : gone.all (fun t => decide (t.endTime ≤ now)) = true := by
    rw [List.all_eq_true]
    intro t member
    exact decide_eq_true (past t member now ask)
  unfold Vehicle.isFree
  rw [split_, List.all_append, done, Bool.true_and]

/-- From a moment on at which it may be asked nobody sees until when the vehicle was busy. -/
lemma max_busyUntil (h : x.Retires asked y) (ask : asked now) (late : now ≤ time) :
    max time y.busyUntil = max time x.busyUntil := by
  obtain ⟨gone, split_, past⟩ := h.tasks
  unfold Vehicle.busyUntil
  rw [split_, List.getLast?_append]
  cases y.tasks.getLast? with
  | some last => rfl
  | none =>
    cases final : gone.getLast? with
    | none => rfl
    | some last =>
      have ended := Time.le_trans (past last (List.mem_of_getLast? final) now ask) late
      apply Time.ext
      simp only [Option.none_or, Time.toNat_max, Time.toNat_zero]
      rw [Time.le_iff] at ended
      omega

lemma availableAt (h : x.Retires asked y) (ask : asked now) : y.availableAt now = x.availableAt now := by
  unfold Vehicle.availableAt
  rw [h.max_busyUntil ask (Time.le_refl _), h.serviceBegin]

lemma currentTask? (h : x.Retires asked y) (ask : asked now) : y.currentTask? now = x.currentTask? now := by
  obtain ⟨gone, split_, past⟩ := h.tasks
  have none_ : gone.find? (fun t => decide (t.beginTime ≤ now ∧ now < t.endTime)) = none := by
    rw [List.find?_eq_none]
    intro t member current
    exact Time.not_lt.mpr (past t member now ask) (of_decide_eq_true current).2
  unfold Vehicle.currentTask?
  rw [split_, List.find?_append, none_, Option.none_or]

/-- Both may be given the same tasks. -/
lemma give (h : x.Retires asked y) (tasks : List Task) :
    ({ x with tasks := x.tasks ++ tasks } : Vehicle).Retires asked { y with tasks := y.tasks ++ tasks } := by
  obtain ⟨gone, split_, past⟩ := h.tasks
  refine { h with finalPlace := ?_, tasks := ⟨gone, ?_, past⟩ }
  · unfold Vehicle.finalPlace
    simp only [List.getLast?_append]
    cases tasks.getLast? with
    | some last => rfl
    | none => exact h.finalPlace
  · rw [split_, List.append_assoc]

/-- The second one may retire more. -/
lemma more (h : x.Retires asked y) (early : ∀ now, asked now → time ≤ now) :
    x.Retires asked (y.retire time).2 := by
  obtain ⟨gone, split_, past⟩ := h.tasks
  refine ⟨h.id, h.serviceBegin, h.serviceEnd, (y.finalPlace_retire time).trans h.finalPlace, ?_⟩
  refine ⟨gone ++ y.tasks.takeWhile fun t => t.endTime ≤ time, ?_, ?_⟩
  · rw [split_, List.append_assoc]
    show gone ++ y.tasks = gone ++ (_ ++ y.tasks.dropWhile fun t => t.endTime ≤ time)
    rw [List.takeWhile_append_dropWhile]
  · intro t member now ask
    rcases List.mem_append.mp member with old | new
    · exact past t old now ask
    · exact Time.le_trans (Task.over_of_mem_takeWhile new) (early now ask)

/-- Both may retire what is over at some moment, even if they are asked at an earlier one. -/
lemma retire (h : x.Retires asked y) (time : Time) : (x.retire time).2.Retires asked (y.retire time).2 := by
  obtain ⟨gone, split_, past⟩ := h.tasks
  refine ⟨h.id, h.serviceBegin, h.serviceEnd, ?_, ?_⟩
  · rw [finalPlace_retire, finalPlace_retire, h.finalPlace]
  · show ∃ gone, x.tasks.dropWhile _ = gone ++ y.tasks.dropWhile _ ∧ _
    rw [split_, List.dropWhile_append]
    split
    · exact ⟨[], rfl, List.forall_mem_nil _⟩
    · rename_i left
      -- what the first one keeps ends later than what the second one retires
      obtain ⟨kept, member, on⟩ : ∃ t ∈ gone, ¬ t.endTime ≤ time := by
        by_contra! none_
        apply left
        rw [List.isEmpty_iff, List.dropWhile_eq_nil_iff]
        intro t member
        exact decide_eq_true (none_ t member)
      refine ⟨gone.dropWhile (fun t => t.endTime ≤ time) ++ y.tasks.takeWhile fun t => t.endTime ≤ time,
        ?_, ?_⟩
      · rw [List.append_assoc, List.takeWhile_append_dropWhile]
      · intro t member' now ask
        rcases List.mem_append.mp member' with old | new
        · exact past t ((List.dropWhile_sublist _).subset old) now ask
        · have ended := Task.over_of_mem_takeWhile new
          have later := past kept member now ask
          rw [Time.le_iff] at *
          omega

end Vehicle.Retires

/-! ## Fleets -/

namespace ScheduledFleet

/-- The vehicles of the second fleet have retired some more tasks, which are over whenever either fleet is
asked. -/
structure Retires (asked : Time → Prop) (f g : ScheduledFleet) : Prop where
  router : g.router = f.router
  pickupDuration : g.pickupDuration = f.pickupDuration
  dropoffDuration : g.dropoffDuration = f.dropoffDuration
  vehicles : ∀ v, Option.Rel (Vehicle.Retires asked) (f.vehicle? v) (g.vehicle? v)

/-- The fleet after a vehicle has been given some tasks. -/
def give (f : ScheduledFleet) (v : VehicleId) (x : Vehicle) (tasks : List Task) : ScheduledFleet :=
  { f with
    vehicles := f.vehicles.insert v { x with tasks := x.tasks ++ tasks }
    wakeups := f.wakeups ++ tasks.map fun t => (v, t.endTime) }

/-- Both fleets give a vehicle the same tasks, those of a ride. -/
def GiveSame (v : VehicleId) (f g f' g' : ScheduledFleet) : Prop :=
  ∃ x y tasks, tasks.map Task.kind = TaskKind.all ∧
    f.vehicle? v = some x ∧ f' = f.give v x tasks ∧ g.vehicle? v = some y ∧ g' = g.give v y tasks

lemma advance_eq {f : ScheduledFleet} {v : VehicleId} {time : Time} :
    (f.advance v time).2 = { f with vehicles := (f.advance v time).2.vehicles } := by
  unfold advance
  split <;> rfl

namespace Retires

variable {asked : Time → Prop} {f g : ScheduledFleet} {now time : Time} {v : VehicleId}

lemma refl (f : ScheduledFleet) : f.Retires asked f where
  router := rfl
  pickupDuration := rfl
  dropoffDuration := rfl
  vehicles v := by
    cases f.vehicle? v with
    | none => exact .none
    | some x => exact .some (.refl x)

lemma mono {asked' : Time → Prop} (h : f.Retires asked g) (fewer : ∀ now, asked' now → asked now) :
    f.Retires asked' g :=
  { h with
    vehicles := by
      intro v
      have both := h.vehicles v
      generalize f.vehicle? v = a, g.vehicle? v = b at both
      cases both with
      | none => exact .none
      | some same => exact .some (same.mono fewer) }

/-- Vehicles of an identity may be put in. -/
lemma insert {x y : Vehicle} {wakeups wakeups' : List (VehicleId × Time)} (h : f.Retires asked g)
    (same : x.Retires asked y) :
    { f with vehicles := f.vehicles.insert v x, wakeups := wakeups }.Retires asked
      { g with vehicles := g.vehicles.insert v y, wakeups := wakeups' } :=
  { h with
    vehicles := by
      intro u
      rw [vehicle?_insert, vehicle?_insert]
      split
      · exact .some same
      · exact h.vehicles u }

/-- A vehicle is in both fleets or in none. -/
lemma either (h : f.Retires asked g) (v : VehicleId) :
    f.vehicles[v]? = none ∧ g.vehicles[v]? = none ∨
      ∃ x y, f.vehicles[v]? = some x ∧ g.vehicles[v]? = some y ∧ x.Retires asked y := by
  have both := h.vehicles v
  unfold vehicle? at both
  generalize f.vehicles[v]? = a, g.vehicles[v]? = b at both
  cases both with
  | none => exact .inl ⟨rfl, rfl⟩
  | some same => exact .inr ⟨_, _, rfl, rfl, same⟩

lemma isSome (h : f.Retires asked g) (v : VehicleId) : g.vehicles[v]?.isSome = f.vehicles[v]?.isSome := by
  rcases h.either v with ⟨before, after⟩ | ⟨x, y, before, after, _⟩
  · rw [before, after]
  · rw [before, after]
    rfl

/-! ### What is asked -/

lemma vehicleIds (h : f.Retires asked g) : Fleet.vehicleIds g = Fleet.vehicleIds f :=
  Table.keys_congr h.isSome

lemma isOutOfService (h : f.Retires asked g) (v : VehicleId) :
    g.isOutOfService v now = f.isOutOfService v now := by
  unfold ScheduledFleet.isOutOfService
  rcases h.either v with ⟨before, after⟩ | ⟨x, y, before, after, same⟩
  · rw [before, after]
  · rw [before, after]
    exact same.isOutOfService

lemma isIdle (h : f.Retires asked g) (ask : asked now) (v : VehicleId) : g.isIdle v now = f.isIdle v now := by
  unfold ScheduledFleet.isIdle
  rcases h.either v with ⟨before, after⟩ | ⟨x, y, before, after, same⟩
  · rw [before, after]
  · simp only [before, after]
    rw [same.isOutOfService, same.isFree ask]

lemma earliestIdleness (h : f.Retires asked g) (ask : asked now) (v : VehicleId) :
    g.earliestIdleness v now = f.earliestIdleness v now := by
  unfold ScheduledFleet.earliestIdleness
  rcases h.either v with ⟨before, after⟩ | ⟨x, y, before, after, same⟩
  · rw [before, after]
  · simp only [before, after]
    rw [same.availableAt ask, same.serviceEnd, same.finalPlace]

lemma isDriving (h : f.Retires asked g) (ask : asked now) (v : VehicleId) :
    g.isDriving v now = f.isDriving v now := by
  unfold ScheduledFleet.isDriving
  rcases h.either v with ⟨before, after⟩ | ⟨x, y, before, after, same⟩
  · rw [before, after]
  · simp only [before, after, Option.bind_some]
    rw [same.currentTask? ask]

/-- Both fleets give the same ride, or refuse it for the same reason. -/
lemma commit (h : f.Retires asked g) (ask : asked now) (v : VehicleId) (request : Request) (pickup : Route) :
    Matched (GiveSame v f g) (f.commit v request pickup now) (g.commit v request pickup now) := by
  unfold ScheduledFleet.commit
  rcases h.either v with ⟨before, after⟩ | ⟨x, y, before, after, same⟩
  · rw [before, after]
    exact .error _
  · have late : now ≤ max pickup.departure now := by
      rw [Time.le_iff, Time.toNat_max]
      exact Nat.le_max_right _ _
    have wayError : g.wayError request = f.wayError request := by
      unfold ScheduledFleet.wayError
      rw [h.router]
    have ride (occupied : Route) (start : Time) :
        g.ride request pickup occupied start = f.ride request pickup occupied start := by
      unfold ScheduledFleet.ride
      rw [h.pickupDuration, h.dropoffDuration]
    simp only [before, after]
    rw [same.max_busyUntil ask late, same.serviceEnd, h.pickupDuration, h.router, wayError]
    split
    · exact .error _
    · split
      · exact .error _
      · rw [ride]
        refine .ok ⟨x, y, _, rfl, before, rfl, after, ?_⟩
        rw [← same.serviceEnd, ← h.pickupDuration, ← h.router]
        rfl

/-! ### What is changed -/

/-- Both fleets may be given the same tasks. -/
lemma giveSame {f' g' : ScheduledFleet} (h : f.Retires asked g) (given : GiveSame v f g f' g') :
    f'.Retires asked g' := by
  obtain ⟨x, y, tasks, _, before, rfl, after, rfl⟩ := given
  have both := h.vehicles v
  rw [before, after] at both
  cases both with
  | some same => exact h.insert (same.give tasks)

lemma similar {now : Time} (ask : asked now) : Fleet.Similar now (Retires asked) where
  vehicleIds h := h.vehicleIds
  isIdle h := h.isIdle ask
  isOutOfService h := h.isOutOfService
  earliestIdleness h := h.earliestIdleness ask
  commit {f g} h v request pickup := by
    have committed := h.commit ask v request pickup
    show Matched _ (f.commit v request pickup now) (g.commit v request pickup now)
    generalize f.commit v request pickup now = r, g.commit v request pickup now = r' at committed
    cases committed with
    | error e => exact .error e
    | ok given => exact .ok (h.giveSame given)

/-- Both fleets may retire what is over at some moment, even if they are asked at an earlier one. -/
lemma advance (h : f.Retires asked g) (v : VehicleId) (time : Time) :
    (f.advance v time).2.Retires asked (g.advance v time).2 := by
  unfold ScheduledFleet.advance
  rcases h.either v with ⟨before, after⟩ | ⟨x, y, before, after, same⟩
  · rw [before, after]
    exact h
  · rw [before, after]
    exact h.insert (same.retire time)

/-- The second one may retire more. -/
lemma more (h : f.Retires asked g) (v : VehicleId) (early : ∀ now, asked now → time ≤ now) :
    f.Retires asked (g.advance v time).2 := by
  refine { h with
    router := ?_
    pickupDuration := ?_
    dropoffDuration := ?_
    vehicles := ?_ }
  · rw [advance_eq]
    exact h.router
  · rw [advance_eq]
    exact h.pickupDuration
  · rw [advance_eq]
    exact h.dropoffDuration
  · intro u
    have both := h.vehicles u
    rw [vehicle?_advance]
    split
    · generalize f.vehicle? u = a, g.vehicle? u = b at both ⊢
      cases both with
      | none => exact .none
      | some same => exact .some (same.more early)
    · exact both

lemma addVehicle (h : f.Retires asked g) (v : VehicleId) (place : Place) (serviceBegin serviceEnd : Time) :
    ((f.addVehicle v place serviceBegin serviceEnd).toOption.getD f).Retires asked
      ((g.addVehicle v place serviceBegin serviceEnd).toOption.getD g) := by
  have known : g.vehicles.contains v = f.vehicles.contains v := by
    rw [Table.contains_eq_isSome, Table.contains_eq_isSome]
    exact h.isSome v
  unfold ScheduledFleet.addVehicle
  rw [known]
  split
  · exact h
  · exact h.insert (.refl _)

end Retires

end ScheduledFleet

/-! ## Runs -/

/-- What a desk is asked to do by an errand. -/
def Errand.order : Errand → Desk.Order ScheduledFleet
  | submit request => .submit request
  | withdraw id now => .withdraw id now
  | cycle ctx => .cycle ctx
  | advance vehicle now => .fleet fun f => (f.advance vehicle now).2
  | addVehicle vehicle place serviceBegin serviceEnd =>
    .fleet fun f => (f.addVehicle vehicle place serviceBegin serviceEnd).toOption.getD f

/-- At the moment there is a cycle among the errands. -/
def Asked (errands : List Errand) (now : Time) : Prop := ∃ ctx, .cycle ctx ∈ errands ∧ ctx.now = now

lemma Asked.tail {errand : Errand} {errands : List Errand} {now : Time} (h : Asked errands now) :
    Asked (errand :: errands) now := by
  obtain ⟨ctx, member, same⟩ := h
  exact ⟨ctx, List.mem_cons_of_mem _ member, same⟩

/-- The second run does what the first one does, and advances vehicles in between, each to a moment that is
not after that of any later cycle. -/
inductive MoreAdvances : List Errand → List Errand → Prop
  | nil : MoreAdvances [] []
  | both {plain more : List Errand} (errand : Errand) :
    MoreAdvances plain more →
    MoreAdvances (errand :: plain) (errand :: more)
  | extra {plain more : List Errand} {vehicle : VehicleId} {time : Time} :
    MoreAdvances plain more →
    (∀ now, Asked plain now → time ≤ now) →
    MoreAdvances plain (.advance vehicle time :: more)

namespace Desk

/-- Whether a reply says more than that an order has been taken. -/
def Reply.tells : Reply → Bool
  | done => false
  | withdrawn _ _ => true
  | cycled _ _ _ => true

/-- What a desk tells when it does some errands: the reports of the cycles, the requests that are handed back,
and all that the world is told. -/
def told (desk : Desk ScheduledFleet) (errands : List Errand) : List Reply :=
  (desk.serve (errands.map Errand.order)).2.filter Reply.tells

variable {desk desk' : Desk ScheduledFleet} {errand : Errand} {errands plain more : List Errand}

lemma told_cons : desk.told (errand :: errands) =
    [(desk.answer errand.order).2].filter Reply.tells ++ (desk.answer errand.order).1.told errands := by
  unfold told
  rw [← List.filter_append]
  rfl

/-- Whatever is done for both of two similar desks leaves them similar. -/
lemma Similar.act (h : Similar (ScheduledFleet.Retires (Asked (errand :: errands))) desk desk') :
    (desk'.answer errand.order).2 = (desk.answer errand.order).2 ∧
      Similar (ScheduledFleet.Retires (Asked (errand :: errands))) (desk.answer errand.order).1
        (desk'.answer errand.order).1 := by
  apply h.answer
  case cycles =>
    intro ctx asks
    apply ScheduledFleet.Retires.similar
    cases errand with
    | cycle ctx' =>
      cases asks
      exact ⟨ctx, List.mem_cons_self, rfl⟩
    | submit => cases asks
    | withdraw => cases asks
    | advance => cases asks
    | addVehicle => cases asks
  case changes =>
    intro change changes f g related
    cases errand with
    | advance vehicle now =>
      cases changes
      exact related.advance vehicle now
    | addVehicle vehicle place serviceBegin serviceEnd =>
      cases changes
      exact related.addVehicle vehicle place serviceBegin serviceEnd
    | submit => cases changes
    | withdraw => cases changes
    | cycle => cases changes

/-- Nobody sees what has been retired early. -/
lemma Similar.told (h : MoreAdvances plain more)
    (similar : Similar (ScheduledFleet.Retires (Asked plain)) desk desk') :
    desk'.told more = desk.told plain := by
  induction h generalizing desk desk' with
  | nil => rfl
  | both errand _ ih =>
    obtain ⟨reply, next⟩ := similar.act
    have rest := ih ⟨next.dispatcher, next.fleet.mono fun _ => Asked.tail⟩
    rw [told_cons, told_cons, reply, rest]
  | @extra plain more vehicle time _ early ih =>
    have next : Similar (ScheduledFleet.Retires (Asked plain)) desk
        (desk'.answer (Errand.advance vehicle time).order).1 :=
      ⟨similar.dispatcher, similar.fleet.more vehicle early⟩
    rw [told_cons, ih next]
    rfl

/-- Whether the tasks of a vehicle that are over by some moment have been retired cannot be seen at that
moment or later: it makes no difference to which vehicles there are, which of them are idle, in service or
driving, where and when they will be idle, whether and why a ride is refused, and which tasks are given. So
two runs of a desk that differ only in that vehicles are advanced, each to a moment that is not after that of
any later cycle, give the same reports and tell the world the same. -/
theorem retirement_unseen :
    (∀ (f : ScheduledFleet) (v : VehicleId) (time now : Time), time ≤ now →
      let g := (f.advance v time).2
      Fleet.vehicleIds g = Fleet.vehicleIds f ∧
      ∀ u, g.isIdle u now = f.isIdle u now ∧ g.isOutOfService u now = f.isOutOfService u now ∧
        g.earliestIdleness u now = f.earliestIdleness u now ∧ g.isDriving u now = f.isDriving u now ∧
        ∀ request pickup, Matched (ScheduledFleet.GiveSame u f g) (f.commit u request pickup now)
          (g.commit u request pickup now)) ∧
    ∀ (settings : Settings) (resolution : Resolution) (first : ScheduledFleet) (plain more : List Errand),
      MoreAdvances plain more →
      (fresh settings resolution first).told more = (fresh settings resolution first).told plain := by
  constructor
  · intro f v time now early g
    have h : f.Retires (· = now) g := (ScheduledFleet.Retires.refl f).more v fun _ same => same ▸ early
    exact ⟨h.vehicleIds, fun u => ⟨h.isIdle rfl u, h.isOutOfService u, h.earliestIdleness rfl u,
      h.isDriving rfl u, h.commit rfl u⟩⟩
  · intro settings resolution first plain more advances
    refine Similar.told advances ⟨⟨_, .refl ?_, rfl⟩, .refl first⟩
    exact ZoneMap.Tidy.empty

/-- A vehicle joins the fleet and is given a ride. -/
def oneRide : List Errand :=
  [.addVehicle ⟨7⟩ (.onDiagonal 1) 0 .never,
    .submit (.immediate ⟨1⟩ ⟨11⟩ (.onDiagonal 2) (.onDiagonal 3) 0 none),
    .cycle ⟨0, Service.steadyRouter⟩]

/-- Another request comes, and there is a cycle. -/
def anotherRide (now : Time) : List Errand :=
  [.submit (.immediate ⟨2⟩ ⟨12⟩ (.onDiagonal 4) (.onDiagonal 5) 0 none), .cycle ⟨now, Service.steadyRouter⟩]

/-- The first ride is retired before the second one is given. -/
theorem retirement_unseen_secondRide :
    let desk := fresh {} 9 (.empty Service.steadyRouter ⟨120⟩ ⟨60⟩)
    let f := (desk.serve (oneRide.map Errand.order)).1.fleet
    let g := (f.advance ⟨7⟩ ⟨5000⟩).2
    let plain := oneRide ++ anotherRide ⟨5000⟩
    let more := oneRide ++ .advance ⟨7⟩ ⟨5000⟩ :: anotherRide ⟨5000⟩
    (f.vehicle? ⟨7⟩).map (fun x => x.tasks.length) = some 4 ∧
      (g.vehicle? ⟨7⟩).map (fun x => x.tasks.length) = some 0 ∧
      (⟨5000⟩ : Time) ≤ ⟨5000⟩ ∧ g.isIdle ⟨7⟩ ⟨5000⟩ = f.isIdle ⟨7⟩ ⟨5000⟩ ∧
      MoreAdvances plain more ∧ desk.told more = desk.told plain := by
  intro desk f g plain more
  obtain ⟨fleets, runs⟩ := retirement_unseen
  have advances : MoreAdvances plain more := by
    refine .both _ (.both _ (.both _ (.extra (.both _ (.both _ .nil)) ?_)))
    rintro now ⟨ctx, member, rfl⟩
    rcases List.mem_cons.mp member with first | second
    · cases first
    · cases List.mem_singleton.mp second
      exact Time.le_refl _
  refine ⟨by decide +kernel, by decide +kernel, by decide, ?_, advances, ?_⟩
  · exact ((fleets f ⟨7⟩ ⟨5000⟩ ⟨5000⟩ (by decide)).2 ⟨7⟩).1
  · exact runs {} 9 _ _ _ advances

/-- The rides that a reply reports. -/
def Reply.rides : Reply → List CommittedRide
  | done => []
  | withdrawn _ _ => []
  | cycled report _ _ => reportedRides report

/-- It is seen that a vehicle has been advanced, though not to a moment after that of the next cycle, if the
cycle after the next one is for a moment at which the vehicle was still driving: then it is given another
ride. -/
theorem retirement_seen_backInTime :
    let desk := fresh {} 9 (.empty Service.steadyRouter ⟨120⟩ ⟨60⟩)
    let next : Errand := .cycle ⟨⟨5000⟩, Service.steadyRouter⟩
    let plain := oneRide ++ next :: anotherRide ⟨1000⟩
    let more := oneRide ++ .advance ⟨7⟩ ⟨5000⟩ :: next :: anotherRide ⟨1000⟩
    (desk.told plain).flatMap Reply.rides = [⟨⟨1⟩, ⟨11⟩, ⟨7⟩⟩] ∧
      (desk.told more).flatMap Reply.rides = [⟨⟨1⟩, ⟨11⟩, ⟨7⟩⟩, ⟨⟨2⟩, ⟨12⟩, ⟨7⟩⟩] ∧
      desk.told more ≠ desk.told plain := by
  intro desk next plain more
  have one : (desk.told plain).flatMap Reply.rides = [⟨⟨1⟩, ⟨11⟩, ⟨7⟩⟩] := by decide +kernel
  have two : (desk.told more).flatMap Reply.rides = [⟨⟨1⟩, ⟨11⟩, ⟨7⟩⟩, ⟨⟨2⟩, ⟨12⟩, ⟨7⟩⟩] := by
    decide +kernel
  refine ⟨one, two, ?_⟩
  intro same
  rw [same, one] at two
  exact absurd two (by decide)

end Desk

end RideDispatch

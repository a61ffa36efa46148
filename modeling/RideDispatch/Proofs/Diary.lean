import RideDispatch.Proofs.Course
import RideDispatch.Proofs.Service

/-!
# The diaries of vehicles

The diary of a vehicle lists every task that the errands of a service have given it, whether retired since
or not. It is what the vehicle has reported as over and then what it has still to do (`Recorded`), so where
it ends is where the vehicle will be. Whatever errands come before, a cycle continues the diary of each
vehicle with an itinerary, which is the main statement, `Service.itineraries`.
-/

namespace RideDispatch

/-- A vehicle as it joins the fleet. -/
def Errand.joins? (v : VehicleId) : Errand → Option Vehicle
  | .addVehicle id place serviceBegin serviceEnd =>
    if id = v then some ⟨v, serviceBegin, serviceEnd, place, []⟩ else none
  | _ => none

namespace Service

/-- The tasks that a vehicle has still to do. -/
def tasks (s : Service) (v : VehicleId) : List Task :=
  match s.fleet.vehicle? v with
  | some x => x.tasks
  | none => []

/-- What an errand appends to the tasks of a vehicle. -/
def appended (s : Service) (errand : Errand) (v : VehicleId) : List Task :=
  ((s.act errand).tasks v).drop (s.tasks v).length

/-- The tasks that errands give a vehicle, one after the other. -/
def diary (s : Service) (v : VehicleId) : List Errand → List Task
  | [] => []
  | errand :: rest => s.appended errand v ++ (s.act errand).diary v rest

/-- A vehicle has been told by one of the errands to retire what is over at a moment, and a task is, which was
`waiting` after the errands before. -/
def Retires (waiting : List Errand → Task → Prop) (v : VehicleId) (errands : List Errand) (time : Time)
    (t : Task) : Prop :=
  ∃ early late, errands = early ++ .advance v time :: late ∧ waiting early t ∧ t.endTime ≤ time

/-- A task is one of those that a vehicle has still to do after errands. -/
def Waiting (first : Service) (v : VehicleId) (errands : List Errand) (t : Task) : Prop :=
  t ∈ (first.run errands).tasks v

/-- A task has been retired ahead of time: when the vehicle had still to do it, at a moment later than `now`. -/
def Ahead (first : Service) (v : VehicleId) (errands : List Errand) (now : Time) (t : Task) : Prop :=
  ∃ time, now < time ∧ Retires (first.Waiting v) v errands time t

variable {s first : Service} {errand : Errand} {errands : List Errand} {v : VehicleId}

lemma diary_snoc : first.diary v (errands ++ [errand]) =
    first.diary v errands ++ (first.run errands).appended errand v := by
  induction errands generalizing first with
  | nil => simp [diary, run]
  | cons e rest ih =>
    show first.appended e v ++ (first.act e).diary v (rest ++ [errand]) = _
    rw [ih, ← List.append_assoc]
    rfl

lemma run_snoc : first.run (errands ++ [errand]) = (first.run errands).act errand := by
  unfold run
  rw [List.foldl_append]
  rfl

lemma Retires.snoc {waiting : List Errand → Task → Prop} {time : Time} {t : Task}
    (h : Retires waiting v errands time t) (errand : Errand) : Retires waiting v (errands ++ [errand]) time t := by
  obtain ⟨early, late, rfl, waits, done⟩ := h
  exact ⟨early, late ++ [errand], by simp, waits, done⟩

/-- An errand that leaves a vehicle as it is appends nothing. -/
lemma appended_of_same (same : (s.act errand).fleet.vehicle? v = s.fleet.vehicle? v) :
    s.appended errand v = [] := by
  unfold appended tasks
  rw [same]
  exact List.drop_length

/-- What is known of a vehicle after errands: nothing if it has not joined yet. If it has, its diary is what it
has reported as over and what it has still to do, and it is where the diary had led it when the last of its
tasks was retired. Every task that is over has been retired by an advance that found it `waiting`. -/
inductive Recorded (waiting : List Errand → Task → Prop) (v : VehicleId) (errands : List Errand)
    (diary : List Task) (retired : List TaskEnded) : Option Vehicle → Prop
  | absent :
    errands.findSome? (Errand.joins? v) = none →
    diary = [] →
    retired.filter (fun t => t.vehicle = v) = [] →
    Recorded waiting v errands diary retired none
  | present (start : Vehicle) (gone : List Task) {place : Place} {rest : List Task} :
    errands.findSome? (Errand.joins? v) = some start →
    diary = gone ++ rest →
    retired.filter (fun t => t.vehicle = v) = gone.map start.report →
    place = ({ start with tasks := gone } : Vehicle).finalPlace →
    (∀ t ∈ gone, ∃ time, Retires waiting v errands time t) →
    Recorded waiting v errands diary retired (some { start with place := place, tasks := rest })

lemma id_of_joined {start : Vehicle} (joined : errands.findSome? (Errand.joins? v) = some start) :
    start.id = v := by
  obtain ⟨e, _, joins⟩ := List.exists_of_findSome?_eq_some joined
  unfold Errand.joins? at joins
  split at joins
  · split at joins
    · cases joins
      rfl
    · cases joins
  · cases joins

namespace Recorded

variable {waiting : List Errand → Task → Prop}
variable {diary : List Task} {retired ended : List TaskEnded} {vehicle? : Option Vehicle} {x : Vehicle}
variable {now : Time}

/-- An errand of another vehicle. -/
lemma other (h : Recorded waiting v errands diary retired vehicle?) (errand : Errand) (ended : List TaskEnded)
    (elsewhere : vehicle? = none → errand.joins? v = none)
    (silent : ended.filter (fun t => t.vehicle = v) = []) :
    Recorded waiting v (errands ++ [errand]) diary (retired ++ ended) vehicle? := by
  cases h with
  | absent joined empty none_ =>
    refine .absent ?_ empty ?_
    · rw [List.findSome?_append, joined]
      simpa using elsewhere rfl
    · rw [List.filter_append, none_, silent]
      rfl
  | present start gone joined parts reports place elapsed =>
    refine .present start gone ?_ parts ?_ place ?_
    · rw [List.findSome?_append, joined]
      rfl
    · rw [List.filter_append, silent, List.append_nil, reports]
    · intro t member
      obtain ⟨time, retires⟩ := elapsed t member
      exact ⟨time, retires.snoc errand⟩

/-- The vehicle is given tasks. -/
lemma append (h : Recorded waiting v errands diary retired (some x)) (more : List Task) :
    Recorded waiting v errands (diary ++ more) retired (some { x with tasks := x.tasks ++ more }) := by
  cases h with
  | present start gone joined parts reports same elapsed =>
    refine .present start gone joined ?_ reports same elapsed
    rw [parts, List.append_assoc]

/-- The vehicle retires tasks of those that it has still to do. -/
lemma retire (h : Recorded waiting v errands diary retired (some x)) (waits : ∀ t ∈ x.tasks, waiting errands t) :
    Recorded waiting v (errands ++ [.advance v now]) diary (retired ++ (x.retire now).1)
      (some (x.retire now).2) := by
  cases h with
  | @present start gone place rest joined parts reports same elapsed =>
    have own := id_of_joined joined
    let ended := rest.takeWhile fun task => task.endTime ≤ now
    have all : (ended.map start.report).filter (fun t => t.vehicle = v) = ended.map start.report := by
      rw [List.filter_eq_self]
      intro t member
      obtain ⟨task, _, rfl⟩ := List.mem_map.mp member
      exact decide_eq_true own
    refine .present start (gone ++ ended) ?_ ?_ ?_ ?_ ?_
    · rw [List.findSome?_append, joined]
      rfl
    · rw [parts, List.append_assoc, List.takeWhile_append_dropWhile]
    · rw [List.filter_append, reports, List.map_append]
      exact congrArg _ all
    · rw [Vehicle.finalPlace_append, ← same]
      rfl
    · intro t member
      rcases List.mem_append.mp member with early | late
      · obtain ⟨time, retires⟩ := elapsed t early
        exact ⟨time, retires.snoc _⟩
      · have done := of_decide_eq_true (List.all_eq_true.mp List.all_takeWhile t late)
        exact ⟨now, errands, [], rfl, waits t ((List.takeWhile_sublist _).subset late), done⟩

/-- The vehicle joins the fleet. -/
lemma join {place : Place} {serviceBegin serviceEnd : Time}
    (h : Recorded waiting v errands diary retired none) :
    Recorded waiting v (errands ++ [.addVehicle v place serviceBegin serviceEnd]) diary retired
      (some ⟨v, serviceBegin, serviceEnd, place, []⟩) := by
  cases h with
  | absent joined empty none_ =>
    refine .present ⟨v, serviceBegin, serviceEnd, place, []⟩ [] ?_ empty none_ rfl (List.forall_mem_nil _)
    rw [List.findSome?_append, joined]
    simp [Errand.joins?]

/-- What the vehicle has reported as over and what it has still to do is its diary. -/
lemma reports {start : Vehicle} (h : Recorded waiting v errands diary retired (some x))
    (joined : errands.findSome? (Errand.joins? v) = some start) :
    retired.filter (fun t => t.vehicle = v) ++ x.tasks.map start.report = diary.map start.report := by
  cases h with
  | present start' gone joined' parts reports place elapsed =>
    obtain rfl := Option.some.inj (joined.symm.trans joined')
    rw [reports, parts, List.map_append]

/-- What continues the tasks that the vehicle has still to do continues its diary. -/
lemma continued {start : Vehicle} {known : Request → Prop} {tasks : List Task}
    (h : Recorded (first.Waiting v) v errands diary retired (some x))
    (joined : errands.findSome? (Errand.joins? v) = some start)
    (itinerary : Itinerary known (first.Ahead v errands now) now x tasks) :
    Itinerary known (first.Ahead v errands now) now { start with tasks := diary } tasks := by
  cases h with
  | present start' gone joined' parts reports place elapsed =>
    obtain rfl := Option.some.inj (joined.symm.trans joined')
    rw [parts]
    refine itinerary.of_retired rfl rfl place ?_
    intro t member
    obtain ⟨time, retires⟩ := elapsed t member
    -- what was retired in the past is over
    by_cases past : time ≤ now
    · obtain ⟨_, _, _, _, done⟩ := retires
      exact .inl (Time.le_trans done past)
    · exact .inr ⟨time, Time.not_le.mp past, retires⟩

/-- Some vehicle of a fleet retires tasks. -/
lemma advancing {f : ScheduledFleet} {id : VehicleId} (h : Recorded waiting v errands diary retired (f.vehicle? v))
    (waits : ∀ x, f.vehicle? v = some x → ∀ t ∈ x.tasks, waiting errands t) (keyed : f.Keyed) :
    Recorded waiting v (errands ++ [.advance id now]) diary (retired ++ (f.advance id now).1)
      ((f.advance id now).2.vehicle? v) := by
  rw [ScheduledFleet.vehicle?_advance]
  by_cases same : id = v
  · subst same
    rw [if_pos rfl]
    unfold ScheduledFleet.advance
    cases found : f.vehicles[id]? with
    | none =>
      rw [show f.vehicle? id = none from found] at h ⊢
      exact h.other _ [] (fun _ => rfl) rfl
    | some x =>
      rw [show f.vehicle? id = some x from found] at h ⊢
      exact h.retire (waits x found)
  · rw [if_neg same]
    exact h.other _ _ (fun _ => rfl) ((keyed.filter_advance id v now).trans (if_neg same))

/-- Some vehicle joins a fleet, unless it has joined before. -/
lemma joining {f : ScheduledFleet} {id : VehicleId} {place : Place} {serviceBegin serviceEnd : Time}
    (h : Recorded waiting v errands diary retired (f.vehicle? v)) :
    Recorded waiting v (errands ++ [.addVehicle id place serviceBegin serviceEnd]) diary retired
      (((f.addVehicle id place serviceBegin serviceEnd).toOption.getD f).vehicle? v) := by
  have elsewhere (apart : f.vehicle? v = none → id ≠ v) :
      Recorded waiting v (errands ++ [.addVehicle id place serviceBegin serviceEnd]) diary retired (f.vehicle? v) := by
    have next := h.other (.addVehicle id place serviceBegin serviceEnd) [] (fun absent => if_neg (apart absent)) rfl
    rwa [List.append_nil] at next
  cases added : f.addVehicle id place serviceBegin serviceEnd with
  | error e =>
    refine elsewhere ?_
    rintro absent rfl
    unfold ScheduledFleet.addVehicle at added
    split at added
    · rename_i known
      rw [Table.contains_eq_isSome, show f.vehicles[id]? = none from absent] at known
      cases known
    · cases added
  | ok f' =>
    show Recorded waiting v _ diary retired (f'.vehicle? v)
    rw [ScheduledFleet.vehicle?_addVehicle added]
    by_cases same : id = v
    · subst same
      rw [(ScheduledFleet.addVehicle_eq_ok added).1] at h
      rw [if_pos rfl]
      exact h.join
    · rw [if_neg same]
      exact elsewhere fun _ => same

end Recorded

/-! ## Errands -/

/-- Pickups are aimed, the index knows where vehicles will be, and schedules are in order. -/
structure Steady (s : Service) : Prop where
  balanced : s.Balanced
  orderly : s.fleet.Orderly
  ways : s.fleet.router.Leads
  aimed : s.dispatcher.state.Aimed s.fleet
  placed : s.dispatcher.state.zones.Placed s.fleet

lemma fleet_cycle {ctx : CycleContext} :
    (s.act (.cycle ctx)).fleet = (s.dispatcher.pass ctx s.fleet).session.fleet := by
  simp only [act, Dispatcher.runCycle_eq]

namespace Steady

variable {ctx : CycleContext} (excused : Task → Prop)

/-- A confirmation is not for a request that comes in. -/
lemma aimed_submit (h : s.Steady) {request : Request} (new : request.id ∉ s.submitted.map Request.id) :
    (s.dispatcher.submit request).state.Aimed s.fleet := by
  refine DispatchState.Backed.submit h.aimed ?_
  intro c r x queued same _
  exact absurd (h.balanced.ledger.mem_submitted queued) (same ▸ new)

lemma placed_withdraw (h : s.Steady) {id : RequestId} {now : Time} {w : Withdrawal}
    (gone : s.dispatcher.withdraw id now = some w) : w.dispatcher.state.zones.Placed s.fleet := by
  rw [Dispatcher.withdraw_eq h.balanced.ledger.sound] at gone
  obtain ⟨request, _, rfl⟩ := Option.map_eq_some_iff.mp gone
  exact h.placed

lemma pass (h : s.Steady) (ways : ctx.router.Leads) :
    (s.dispatcher.pass ctx s.fleet).session.OnCourse s.ledger s.fleet excused ctx.now :=
  Dispatcher.pass_onCourse
    (Dispatcher.begin_onCourse h.balanced.ledger h.orderly h.ways h.aimed h.placed)
    h.balanced.ledger.sound ways

/-- Every errand that submits nothing again keeps a service steady. -/
lemma act (h : s.Steady)
    (new : ∀ id, errand.submits? = some id → id ∉ s.submitted.map Request.id)
    (ways : ∀ ctx, errand = .cycle ctx → ctx.router.Leads) : (s.act errand).Steady := by
  have balanced := h.balanced.act new
  cases errand with
  | submit request => exact ⟨balanced, h.orderly, h.ways, h.aimed_submit (new _ rfl), h.placed⟩
  | withdraw id now =>
    simp only [Service.act] at balanced ⊢
    split at balanced
    · exact h
    · rename_i w gone
      have aimed := DispatchState.Backed.withdraw h.aimed h.balanced.ledger.sound gone
      exact ⟨balanced, h.orderly, h.ways, aimed, h.placed_withdraw gone⟩
  | cycle ctx =>
    have cycled := h.pass (fun _ => False) (ways ctx rfl)
    simp only [Service.act, Dispatcher.runCycle_eq] at balanced ⊢
    exact ⟨balanced, cycled.orderly, cycled.ways, cycled.aimed, cycled.placed⟩
  | advance id now =>
    refine ⟨balanced, h.orderly.advance, ?_, h.aimed.advance, h.placed.advance⟩
    show (s.fleet.advance id now).2.router.Leads
    unfold ScheduledFleet.advance
    split
    · exact h.ways
    · exact h.ways
  | addVehicle id place serviceBegin serviceEnd =>
    simp only [Service.act] at balanced ⊢
    cases added : s.fleet.addVehicle id place serviceBegin serviceEnd with
    | error => exact h
    | ok fleet =>
      rw [added] at balanced
      refine ⟨balanced, h.orderly.addVehicle added, ?_, DispatchState.Backed.addVehicle h.aimed added,
        h.placed.addVehicle added⟩
      obtain ⟨_, rfl⟩ := ScheduledFleet.addVehicle_eq_ok added
      exact h.ways

/-- A vehicle does not join by a cycle. -/
lemma unknown (h : s.Steady) (ways : ctx.router.Leads) (absent : s.fleet.vehicle? v = none) :
    (s.act (.cycle ctx)).fleet.vehicle? v = none := by
  rw [fleet_cycle]
  exact (h.pass (fun _ => False) ways).extended.unknown v absent

/-- A cycle continues the tasks of a vehicle with an itinerary. -/
lemma continues (h : s.Steady) (ways : ctx.router.Leads) {x : Vehicle}
    (found : s.fleet.vehicle? v = some x) :
    (s.act (.cycle ctx)).fleet.vehicle? v =
        some { x with tasks := x.tasks ++ s.appended (.cycle ctx) v } ∧
      Itinerary (· ∈ s.submitted) excused ctx.now x (s.appended (.cycle ctx) v) := by
  obtain ⟨tasks, after, itinerary⟩ := (h.pass excused ways).extended.continues v x found
  rw [← fleet_cycle] at after
  have same : s.appended (.cycle ctx) v = tasks := by
    unfold appended Service.tasks
    rw [after, found]
    exact List.drop_left
  rw [same]
  exact ⟨after, itinerary⟩

end Steady

namespace Recorded

variable {waiting : List Errand → Task → Prop} {diary : List Task} {ctx : CycleContext}

/-- An errand that leaves a vehicle as it is. -/
lemma unchanged (h : Recorded waiting v errands diary s.retired (s.fleet.vehicle? v)) (ended : List TaskEnded)
    (same : (s.act errand).fleet.vehicle? v = s.fleet.vehicle? v)
    (retired : (s.act errand).retired = s.retired ++ ended)
    (elsewhere : s.fleet.vehicle? v = none → errand.joins? v = none)
    (silent : ended.filter (fun t => t.vehicle = v) = []) :
    Recorded waiting v (errands ++ [errand]) (diary ++ s.appended errand v) (s.act errand).retired
      ((s.act errand).fleet.vehicle? v) := by
  rw [appended_of_same same, List.append_nil, same, retired]
  exact h.other errand ended elsewhere silent

lemma cycle (h : Recorded waiting v errands diary s.retired (s.fleet.vehicle? v)) (steady : s.Steady)
    (ways : ctx.router.Leads) :
    Recorded waiting v (errands ++ [.cycle ctx]) (diary ++ s.appended (.cycle ctx) v)
      (s.act (.cycle ctx)).retired ((s.act (.cycle ctx)).fleet.vehicle? v) := by
  cases found : s.fleet.vehicle? v with
  | none =>
    have after := steady.unknown ways found
    exact h.unchanged [] (after.trans found.symm) (List.append_nil _).symm (fun _ => rfl) rfl
  | some x =>
    rw [found] at h
    rw [(steady.continues (fun _ => False) ways found).1]
    have next := h.other (.cycle ctx) [] nofun rfl
    rw [List.append_nil] at next
    exact next.append _

lemma advance {id : VehicleId} {now : Time}
    (h : Recorded waiting v errands diary s.retired (s.fleet.vehicle? v))
    (waits : ∀ x, s.fleet.vehicle? v = some x → ∀ t ∈ x.tasks, waiting errands t) (keyed : s.fleet.Keyed) :
    Recorded waiting v (errands ++ [.advance id now]) (diary ++ s.appended (.advance id now) v)
      (s.act (.advance id now)).retired ((s.act (.advance id now)).fleet.vehicle? v) := by
  have none_ : s.appended (.advance id now) v = [] := by
    have after : (s.act (.advance id now)).fleet.vehicle? v =
        if id = v then (s.fleet.vehicle? v).map fun x => (x.retire now).2 else s.fleet.vehicle? v :=
      ScheduledFleet.vehicle?_advance
    unfold appended Service.tasks
    rw [after]
    by_cases same : id = v
    · rw [if_pos same]
      cases s.fleet.vehicle? v with
      | none => rfl
      | some x => exact List.drop_of_length_le (List.dropWhile_sublist _).length_le
    · rw [if_neg same]
      exact List.drop_length
  rw [none_, List.append_nil]
  exact h.advancing waits keyed

lemma addVehicle {id : VehicleId} {place : Place} {serviceBegin serviceEnd : Time}
    (h : Recorded waiting v errands diary s.retired (s.fleet.vehicle? v)) :
    Recorded waiting v (errands ++ [.addVehicle id place serviceBegin serviceEnd])
      (diary ++ s.appended (.addVehicle id place serviceBegin serviceEnd) v)
      (s.act (.addVehicle id place serviceBegin serviceEnd)).retired
      ((s.act (.addVehicle id place serviceBegin serviceEnd)).fleet.vehicle? v) := by
  have fleet : (s.act (.addVehicle id place serviceBegin serviceEnd)).fleet =
      (s.fleet.addVehicle id place serviceBegin serviceEnd).toOption.getD s.fleet := by
    unfold Service.act
    simp only
    cases s.fleet.addVehicle id place serviceBegin serviceEnd <;> rfl
  have retired : (s.act (.addVehicle id place serviceBegin serviceEnd)).retired = s.retired := by
    unfold Service.act
    simp only
    cases s.fleet.addVehicle id place serviceBegin serviceEnd <;> rfl
  have none_ : s.appended (.addVehicle id place serviceBegin serviceEnd) v = [] := by
    unfold appended Service.tasks
    rw [fleet]
    cases added : s.fleet.addVehicle id place serviceBegin serviceEnd with
    | error e => exact List.drop_length
    | ok fleet =>
      simp only [Except.toOption, Option.getD_some, ScheduledFleet.vehicle?_addVehicle added]
      by_cases same : id = v
      · rw [if_pos same]
        exact List.drop_nil
      · rw [if_neg same]
        exact List.drop_length
  rw [none_, List.append_nil, retired, fleet]
  exact h.joining

/-- Every errand keeps the record of a vehicle. -/
lemma act (h : Recorded waiting v errands diary s.retired (s.fleet.vehicle? v))
    (waits : ∀ x, s.fleet.vehicle? v = some x → ∀ t ∈ x.tasks, waiting errands t) (steady : s.Steady)
    (ways : ∀ ctx, errand = .cycle ctx → ctx.router.Leads) :
    Recorded waiting v (errands ++ [errand]) (diary ++ s.appended errand v) (s.act errand).retired
      ((s.act errand).fleet.vehicle? v) := by
  cases errand with
  | submit request => exact h.unchanged [] rfl (List.append_nil _).symm (fun _ => rfl) rfl
  | withdraw id now =>
    cases gone : s.dispatcher.withdraw id now with
    | none =>
      have same : s.act (.withdraw id now) = s := by simp only [Service.act, gone]
      exact h.unchanged [] (by rw [same]) (by rw [same, List.append_nil]) (fun _ => rfl) rfl
    | some w =>
      have act : s.act (.withdraw id now) =
          { s with dispatcher := w.dispatcher, withdrawn := s.withdrawn ++ [w.request] } := by
        simp only [Service.act, gone]
      exact h.unchanged [] (by rw [act]) (by rw [act, List.append_nil]) (fun _ => rfl) rfl
  | cycle ctx => exact h.cycle steady (ways ctx rfl)
  | advance id now => exact h.advance waits steady.balanced.ledger.keyed
  | addVehicle id place serviceBegin serviceEnd => exact h.addVehicle

end Recorded

/-! ## Whole runs -/

variable {settings : Settings} {resolution : Resolution} {router : Router}
variable {pickupDuration dropoffDuration : Time}

lemma Steady.fresh (provided : router.Provided) :
    (Service.fresh settings resolution router pickupDuration dropoffDuration).Steady where
  balanced := .fresh
  orderly := ScheduledFleet.orderly_empty router pickupDuration dropoffDuration
  ways := provided.leads
  aimed := fun _ held => (Registry.not_holds_empty held).elim
  placed := .empty

/-- After any errands that submit each request once a service is steady, and every vehicle is recorded. -/
lemma steady_run (provided : router.Provided) (once : (errands.filterMap Errand.submits?).Nodup)
    (asked : ∀ ctx, .cycle ctx ∈ errands → ctx.router.Provided) :
    let first := Service.fresh settings resolution router pickupDuration dropoffDuration
    (first.run errands).Steady ∧ ∀ v, Recorded (first.Waiting v) v errands (first.diary v errands)
      (first.run errands).retired ((first.run errands).fleet.vehicle? v) := by
  intro first
  induction errands using List.reverseRecOn with
  | nil =>
    refine ⟨.fresh provided, fun v => ?_⟩
    rw [show (first.run []).fleet.vehicle? v = none from ScheduledFleet.vehicle?_empty _ _ _ v]
    exact .absent rfl rfl rfl
  | append_singleton errands errand ih =>
    rw [List.filterMap_append] at once
    have earlier := List.Nodup.of_append_left once
    obtain ⟨steady, recorded⟩ := ih earlier fun ctx member => asked ctx (List.mem_append_left _ member)
    have ways : ∀ ctx, errand = .cycle ctx → ctx.router.Leads := by
      rintro ctx rfl
      exact (asked ctx (List.mem_append_right _ List.mem_cons_self)).leads
    rw [run_snoc]
    refine ⟨steady.act ?_ ways, fun v => ?_⟩
    · intro id submits member
      have submitted : (first.run errands).submitted.map Request.id = errands.filterMap Errand.submits? :=
        (Balanced.fresh.run earlier).2
      rw [submitted] at member
      refine List.disjoint_of_nodup_append once member ?_
      rw [List.filterMap_cons, submits]
      exact List.mem_cons_self
    · rw [diary_snoc]
      refine (recorded v).act ?_ steady ways
      intro x found t member
      show t ∈ (first.run errands).tasks v
      unfold tasks
      rwa [found]

/-- Whatever errands a service that is asked for each request once has done, over any tables and networks, a
cycle continues what each vehicle has to do, and the diary of each vehicle, with rides. The diary is what
the vehicle has reported as over and what it has still to do. Each ride is for a request that was submitted.
It starts on the link where the diary ends, or where the vehicle joined. The empty drive ends on the link of
the pickup and the occupied drive leads from there to the link of the destination; the four tasks follow
each other without a gap. The first begins no earlier than the cycle, in the time of service, no earlier
than any task ends that the vehicle has still to do, and no earlier than any task of the diary ends, unless
the vehicle was told, when it had still to do that task, to retire it at a moment later than that of the cycle. -/
theorem itineraries (settings : Settings) (resolution : Resolution) (router : Router)
    (pickupDuration dropoffDuration : Time) (errands : List Errand) (ctx : CycleContext)
    (provided : router.Provided)
    (asked : ∀ ctx', .cycle ctx' ∈ errands ++ [.cycle ctx] → ctx'.router.Provided)
    (once : (errands.filterMap Errand.submits?).Nodup) (v : VehicleId) :
    let first := fresh settings resolution router pickupDuration dropoffDuration
    let s := first.run errands
    (s.act (.cycle ctx)).tasks v = s.tasks v ++ s.appended (.cycle ctx) v ∧
      (∀ x, s.fleet.vehicle? v = some x →
        Itinerary (· ∈ s.submitted) (fun _ => False) ctx.now x (s.appended (.cycle ctx) v)) ∧
      ∀ start, errands.findSome? (Errand.joins? v) = some start →
        s.retired.filter (fun t => t.vehicle = v) ++ (s.tasks v).map start.report =
          (first.diary v errands).map start.report ∧
        Itinerary (· ∈ s.submitted) (first.Ahead v errands ctx.now) ctx.now
          { start with tasks := first.diary v errands } (s.appended (.cycle ctx) v) := by
  intro first s
  obtain ⟨steady, recorded⟩ : s.Steady ∧ ∀ v, Recorded (first.Waiting v) v errands (first.diary v errands) s.retired
      (s.fleet.vehicle? v) :=
    steady_run provided once fun ctx' member => asked ctx' (List.mem_append_left _ member)
  have ways : ctx.router.Leads := (asked ctx (List.mem_append_right _ List.mem_cons_self)).leads
  have record := recorded v
  cases found : s.fleet.vehicle? v with
  | none =>
    have after := steady.unknown ways found
    refine ⟨?_, nofun, ?_⟩
    · rw [appended_of_same (after.trans found.symm)]
      unfold tasks
      rw [after, found]
      rfl
    · intro start joined
      rw [found] at record
      cases record with
      | absent unknown =>
        rw [joined] at unknown
        cases unknown
  | some x =>
    obtain ⟨after, itinerary⟩ := steady.continues (first.Ahead v errands ctx.now) ways found
    have here : s.tasks v = x.tasks := by
      unfold tasks
      rw [found]
    refine ⟨?_, ?_, ?_⟩
    · rw [here]
      unfold tasks
      rw [after]
    · intro x' same
      rw [← Option.some.inj same]
      exact (steady.continues (fun _ => False) ways found).2
    · intro start joined
      rw [found] at record
      rw [here]
      exact ⟨record.reports joined, record.continued joined itinerary⟩

/-- A minute from each link to the next. -/
def minutes : Router := .ofTable ([1, 2, 3, 4].map fun n => ⟨⟨n⟩, ⟨n + 1⟩, ⟨60000⟩⟩)

/-- A vehicle joins on the first link and is given a ride from the second link to the third. -/
def firstRide : List Errand :=
  [.addVehicle ⟨7⟩ (.onDiagonal 1) 0 .never,
    .submit (.immediate ⟨1⟩ ⟨11⟩ (.onDiagonal 2) (.onDiagonal 3) 0 none),
    .cycle ⟨0, minutes⟩]

/-- A request for a ride from the fourth link to the fifth. -/
def secondRequest : Errand := .submit (.immediate ⟨2⟩ ⟨12⟩ (.onDiagonal 4) (.onDiagonal 5) 0 none)

/-- The second ride begins on the third link, when the first one is over. -/
theorem itineraries_secondRide :
    let first := fresh {} 9 minutes ⟨120000⟩ ⟨60000⟩
    let s := first.run (firstRide ++ [secondRequest])
    let added := s.appended (.cycle ⟨⟨300000⟩, minutes⟩) ⟨7⟩
    ((firstRide ++ [secondRequest]).filterMap Errand.submits?).Nodup ∧ minutes.Provided ∧
      (first.diary ⟨7⟩ (firstRide ++ [secondRequest])).map Task.endTime =
        [⟨60000⟩, ⟨180000⟩, ⟨240000⟩, ⟨300000⟩] ∧
      added.map Task.beginTime = [⟨300000⟩, ⟨360000⟩, ⟨480000⟩, ⟨540000⟩] ∧
      added.map Task.links = [[⟨3⟩, ⟨4⟩], [], [⟨4⟩, ⟨5⟩], []] ∧
      Itinerary (· ∈ s.submitted) (first.Ahead ⟨7⟩ (firstRide ++ [secondRequest]) ⟨300000⟩) ⟨300000⟩
        ⟨⟨7⟩, 0, .never, .onDiagonal 1, first.diary ⟨7⟩ (firstRide ++ [secondRequest])⟩ added := by
  intro first s added
  have provided : minutes.Provided := .table _
  have once : ((firstRide ++ [secondRequest]).filterMap Errand.submits?).Nodup := by decide
  have asked : ∀ ctx, .cycle ctx ∈ (firstRide ++ [secondRequest]) ++ [.cycle ⟨⟨300000⟩, minutes⟩] →
      ctx.router.Provided := by
    intro ctx member
    simp only [firstRide, secondRequest, List.cons_append, List.nil_append, List.mem_cons,
      List.not_mem_nil, or_false, reduceCtorEq, false_or, Errand.cycle.injEq] at member
    rcases member with rfl | rfl <;> exact provided
  obtain ⟨_, _, itinerary⟩ := itineraries {} 9 minutes ⟨120000⟩ ⟨60000⟩ (firstRide ++ [secondRequest])
    ⟨⟨300000⟩, minutes⟩ provided asked once ⟨7⟩
  exact ⟨once, provided, by decide +kernel, by decide +kernel, by decide +kernel, (itinerary _ rfl).2⟩

/-- A ride begins before an earlier one has ended if that one has been retired ahead of the cycle. -/
theorem begins_before_retired :
    let errands := firstRide ++ [.advance ⟨7⟩ ⟨1000000⟩, secondRequest]
    let first := fresh {} 9 minutes ⟨120000⟩ ⟨60000⟩
    (errands.filterMap Errand.submits?).Nodup ∧ minutes.Provided ∧
      ∃ t ∈ first.diary ⟨7⟩ errands, ∃ t',
        ((first.run errands).appended (.cycle ⟨⟨1000⟩, minutes⟩) ⟨7⟩).head? = some t' ∧
          t'.beginTime < t.endTime := by
  intro errands first
  have ends : (first.diary ⟨7⟩ errands).map Task.endTime =
      [⟨60000⟩, ⟨180000⟩, ⟨240000⟩, ⟨300000⟩] := by decide +kernel
  have begins : ((first.run errands).appended (.cycle ⟨⟨1000⟩, minutes⟩) ⟨7⟩).map Task.beginTime =
      [⟨1000⟩, ⟨61000⟩, ⟨181000⟩, ⟨241000⟩] := by decide +kernel
  have last : (⟨300000⟩ : Time) ∈ (first.diary ⟨7⟩ errands).map Task.endTime := by
    rw [ends]
    decide
  obtain ⟨t, member, ended⟩ := List.mem_map.mp last
  obtain ⟨t', rest, added, begun, _⟩ := List.map_eq_cons_iff.mp begins
  refine ⟨by decide, .table _, t, member, t', ?_, ?_⟩
  · rw [added]
    rfl
  · rw [begun, ended]
    decide

end Service

end RideDispatch

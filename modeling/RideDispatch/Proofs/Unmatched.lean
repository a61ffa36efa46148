import RideDispatch.Proofs.Service
import RideDispatch.Proofs.Turns

/-!
# Requests that find no vehicle

Where requests choose, a request ought to be left unmatched only if none of the vehicles near to it that
are idle and free of confirmations has a way to its pickup. A cycle comes close to that. Whatever a service
has been asked to do before, a request is left unmatched if no such vehicle has a way to it, and also if
the fleet has refused, in the same pass, as many rides as vehicles are free (`Service.unmatched_iff`). A
vehicle that has been refused one ride can then be missing for the next request, which it could serve
(`Service.unmatched_although_servable`).
-/

namespace RideDispatch.Service

variable {s : Service} {errand : Errand} {errands : List Errand}

/-- The state is sound, and only vehicles of the fleet are indexed. -/
structure Ready (s : Service) : Prop where
  sound : s.dispatcher.state.Sound
  covered : s.dispatcher.state.zones.Covered s.fleet

lemma Ready.fresh {settings : Settings} {resolution : Resolution} {router : Router}
    {pickupDuration dropoffDuration : Time} :
    (Service.fresh settings resolution router pickupDuration dropoffDuration).Ready where
  sound := .empty _ _
  covered := by
    intro v member
    have absent : (Zones.empty resolution).vehicles.contains v = false := ZoneMap.contains_empty
    exact absurd (absent.symm.trans member) Bool.false_ne_true

lemma Ready.act (h : s.Ready) : (s.act errand).Ready := by
  cases errand with
  | submit request => exact ⟨Dispatcher.submit_sound h.sound, h.covered⟩
  | withdraw id now =>
    simp only [Service.act]
    cases gone : s.dispatcher.withdraw id now with
    | none => exact h
    | some w =>
      exact ⟨Dispatcher.withdraw_sound h.sound gone, Dispatcher.withdraw_covered h.sound h.covered gone⟩
  | cycle ctx =>
    exact ⟨Dispatcher.runCycle_sound h.sound, Dispatcher.runCycle_covered h.sound h.covered⟩
  | advance v now =>
    refine ⟨h.sound, ?_⟩
    intro w member
    exact ScheduledFleet.isSome_advance (h.covered w member)
  | addVehicle v place serviceBegin serviceEnd =>
    simp only [Service.act]
    cases added : s.fleet.addVehicle v place serviceBegin serviceEnd with
    | error => exact h
    | ok fleet =>
      refine ⟨h.sound, ?_⟩
      intro w member
      exact ScheduledFleet.isSome_addVehicle added (h.covered w member)

lemma Ready.run (h : s.Ready) : (s.run errands).Ready := by
  induction errands generalizing s with
  | nil => exact h
  | cons errand rest ih => exact ih h.act

lemma settings_act : (s.act errand).dispatcher.settings = s.dispatcher.settings := by
  cases errand with
  | submit => rfl
  | withdraw id now =>
    simp only [act]
    cases gone : s.dispatcher.withdraw id now with
    | none => rfl
    | some w => exact (Dispatcher.withdraw_inv gone).2
  | cycle => rfl
  | advance => rfl
  | addVehicle =>
    simp only [act]
    split <;> rfl

lemma settings_run : (s.run errands).dispatcher.settings = s.dispatcher.settings := by
  induction errands generalizing s with
  | nil => rfl
  | cons errand rest ih => exact ih.trans settings_act

/-- In a cycle in which requests choose, whatever the service has been asked to do before it: the report is
that of the turns of the planned requests, one after the other. A request is counted as unmatched at its
turn, once, just if it is plannable and either none of the near free vehicles can serve it, or the rides
that the fleet has refused since the pass began are as many as the free vehicles. So as long as no ride
has been refused, only a request that nobody near can serve is left unmatched. -/
theorem unmatched_iff (settings : Settings) (resolution : Resolution) (router : Router)
    (pickupDuration dropoffDuration : Time) (errands : List Errand) (ctx : CycleContext)
    (strategy : settings.strategy = .ruleBased)
    (requestsChoose :
      let s := (fresh settings resolution router pickupDuration dropoffDuration).run errands
      Greedy.vehicleInitiated settings.goal (s.dispatcher.view ctx.now s.fleet) = false) :
    let s := (fresh settings resolution router pickupDuration dropoffDuration).run errands
    let turns := s.dispatcher.turns ctx s.fleet
    let planned := s.dispatcher.planned ctx.now s.fleet
    let plans := s.dispatcher.plans ctx.now s.fleet
    (s.dispatcher.runCycle ctx s.fleet).report = .ok (turns plans).2.report ∧
    ∀ before id after, plans = before ++ id :: after →
      let t := (turns before).2
      let next := (turns (before ++ [id])).2
      let counted := next.report.unmatched = t.report.unmatched + 1
      let servable := Greedy.Servable t.state ctx settings.nearestVehiclesLimit id
      (counted ∨ next.report.unmatched = t.report.unmatched) ∧
      ∃ refused : List RequestId,
        t.report.dropped = planned.report.dropped ++ refused.map (fun r => (r, .commitFailed)) ∧
        (counted ↔ t.state.isPlannable id ctx.now = true ∧
          (t.state.unbound.length = refused.length ∨ ¬ servable)) ∧
        (refused = [] → counted → ¬ servable) := by
  intro s turns planned plans
  obtain ⟨sound, covered⟩ : s.Ready := Ready.fresh.run
  have same : s.dispatcher.settings = settings := settings_run
  constructor
  · show (s.dispatcher.runCycle ctx s.fleet).report = _
    rw [Dispatcher.runCycle_report ctx s.fleet sound ScheduledFleet.nodup_vehicleIds,
      Dispatcher.pass_eq_turns sound (same ▸ strategy) (same ▸ requestsChoose)]
  · intro before id after _ t next counted servable
    obtain ⟨refused, dropped, iff_, once⟩ := Dispatcher.unmatched_turns ctx sound covered before id
    rw [same] at iff_
    refine ⟨once, refused, dropped, iff_, ?_⟩
    rintro rfl unmatched
    rcases (iff_.mp unmatched).2 with none_ | nobody
    · exact Greedy.not_servable_of_unbound none_
    · exact nobody

/-- A router that needs a second for every way, but has none to one of the links. -/
def closedRouter : Router where
  route? _ target departure := if target.link = ⟨3⟩ then none else some ⟨departure, ⟨1000⟩, 0, []⟩

/-- Two requests for one vehicle. The ride for the first will be refused. -/
def refusedRide : List Errand :=
  [.addVehicle ⟨7⟩ (.onDiagonal 1) 0 .never,
    .submit (.immediate ⟨1⟩ ⟨11⟩ (.onDiagonal 2) (.onDiagonal 3) 0 none),
    .submit (.immediate ⟨2⟩ ⟨12⟩ (.onDiagonal 4) (.onDiagonal 5) 0 none)]

theorem unmatched_iff_refusedRide :
    let settings : Settings := { goal := .minWaitTime }
    let s := (fresh settings 9 closedRouter ⟨120⟩ ⟨60⟩).run refusedRide
    let ctx : CycleContext := ⟨0, steadyRouter⟩
    let t := (s.dispatcher.turns ctx s.fleet [⟨1⟩]).2
    settings.strategy = .ruleBased ∧
    Greedy.vehicleInitiated settings.goal (s.dispatcher.view ctx.now s.fleet) = false ∧
    s.dispatcher.plans ctx.now s.fleet = [⟨1⟩] ++ ⟨2⟩ :: [] ∧
    t.report.dropped = [(⟨1⟩, .commitFailed)] ∧ t.state.unbound = [⟨7⟩] ∧
    (s.dispatcher.turns ctx s.fleet ([⟨1⟩] ++ [⟨2⟩])).2.report.unmatched = t.report.unmatched + 1 := by
  refine ⟨rfl, by decide +kernel, by decide +kernel, by decide +kernel, by decide +kernel, ?_⟩
  have turn := (unmatched_iff { goal := .minWaitTime } 9 closedRouter ⟨120⟩ ⟨60⟩ refusedRide
    ⟨0, steadyRouter⟩ rfl (by decide +kernel)).2 [⟨1⟩] ⟨2⟩ [] (by decide +kernel)
  obtain ⟨_, refused, refusals, counted, _⟩ := turn
  -- one ride has been refused, and one vehicle is free
  have one := congrArg List.length refusals
  rw [List.length_append, List.length_map] at one
  refine counted.mpr ⟨by decide +kernel, .inl ?_⟩
  apply Nat.add_left_cancel
  refine Eq.trans ?_ one
  decide +kernel

/-- There is a service that leaves a request unmatched although a vehicle that is near, idle and free of
confirmations has a way to its pickup. -/
theorem unmatched_although_servable :
    ∃ (settings : Settings) (router : Router) (errands : List Errand) (ctx : CycleContext)
      (before after : List RequestId) (id : RequestId),
      let s := (fresh settings 9 router ⟨120⟩ ⟨60⟩).run errands
      let t := (s.dispatcher.turns ctx s.fleet before).2
      settings.strategy = .ruleBased ∧
      Greedy.vehicleInitiated settings.goal (s.dispatcher.view ctx.now s.fleet) = false ∧
      s.dispatcher.plans ctx.now s.fleet = before ++ id :: after ∧
      t.state.isPlannable id ctx.now = true ∧
      (s.dispatcher.turns ctx s.fleet (before ++ [id])).2.report.unmatched = t.report.unmatched + 1 ∧
      Greedy.Servable t.state ctx settings.nearestVehiclesLimit id := by
  refine ⟨{ goal := .minWaitTime }, closedRouter, refusedRide, ⟨0, steadyRouter⟩, [⟨1⟩], [], ⟨2⟩, ?_⟩
  refine ⟨rfl, ?_, ?_, ?_, ?_, ?_⟩
  · decide +kernel
  · decide +kernel
  · decide +kernel
  · decide +kernel
  · decide +kernel

end RideDispatch.Service

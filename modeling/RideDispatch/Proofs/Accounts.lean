import RideDispatch.Proofs.Batch
import RideDispatch.Proofs.Moves
import RideDispatch.Proofs.Unmatched

/-!
# The accounts of a cycle

A cycle plans some requests. Those of them that have not expired it either asks for, or it counts them as
unmatched. Each strategy counts in its own way: one by one where requests choose, by what is plannable in the
end where vehicles choose, and by what the matching leaves over where all is paired at once. What a part of a
cycle adds to the accounts is `Session.Adds`, and `Session.openConfirmation_adds` says what it is for one
driver who is asked. The three ways agree with each other, and with the requests that are planned
(`Dispatcher.accounts`), except that a request whose confirmation is dropped in the pass is plannable again.
It is counted as unmatched, too, if vehicles choose (`Dispatcher.asked_and_unmatched`).
-/

namespace RideDispatch

/-- Those of several requests that can take a confirmation. -/
def DispatchState.plannable (s : DispatchState) (now : Time) (ids : List RequestId) : List RequestId :=
  ids.filter fun id => s.isPlannable id now

namespace Session

variable {φ : Type} {s s' next : Session φ} {now : Time} {p : Pairing} {placement : Placement}
variable {request : Request} {id : RequestId} {c : Confirmation}

/-- What a part of a cycle adds to its accounts: the requests for which drivers are asked, in order, those
that are counted as unmatched, and the confirmations that are dropped. -/
structure Adds (s s' : Session φ) (asked missed : List RequestId) (lost : List (RequestId × DropReason)) :
    Prop where
  planned : s'.report.planned = s.report.planned
  openings : s'.openings.map ConfirmationEvent.request = s.openings.map ConfirmationEvent.request ++ asked
  opened : s'.report.opened = s.report.opened + asked.length
  unmatched : s'.report.unmatched = s.report.unmatched + missed.length
  dropped : s'.report.dropped = s.report.dropped ++ lost
  own : ∀ drop ∈ lost, drop.1 ∈ asked

lemma Adds.refl (s : Session φ) : s.Adds s [] [] [] where
  planned := rfl
  openings := (List.append_nil _).symm
  opened := rfl
  unmatched := rfl
  dropped := (List.append_nil _).symm
  own _ member := absurd member List.not_mem_nil

lemma Adds.trans {asked asked' missed missed' : List RequestId} {lost lost' : List (RequestId × DropReason)}
    (first : s.Adds s' asked missed lost) (second : s'.Adds next asked' missed' lost') :
    s.Adds next (asked ++ asked') (missed ++ missed') (lost ++ lost') where
  planned := second.planned.trans first.planned
  openings := by rw [second.openings, first.openings, List.append_assoc]
  opened := by rw [second.opened, first.opened, List.length_append, Nat.add_assoc]
  unmatched := by rw [second.unmatched, first.unmatched, List.length_append, Nat.add_assoc]
  dropped := by rw [second.dropped, first.dropped, List.append_assoc]
  own drop member := by
    rcases List.mem_append.mp member with early | late
    · exact List.mem_append_left _ (first.own drop early)
    · exact List.mem_append_right _ (second.own drop late)

lemma Adds.note (s : Session φ) (astray : Bool) : s.Adds (s.note astray) [] [] [] :=
  ⟨rfl, (List.append_nil _).symm, rfl, rfl, (List.append_nil _).symm, nofun⟩

/-- Several requests may be counted as unmatched at once. -/
lemma Adds.miss (s : Session φ) (missed : List RequestId) :
    s.Adds { s with report := s.report.addUnmatched missed.length } [] missed [] where
  planned := rfl
  openings := (List.append_nil _).symm
  opened := rfl
  unmatched := rfl
  dropped := (List.append_nil _).symm
  own _ member := absurd member List.not_mem_nil

/-- What becomes of a plannable request for which a driver is asked: it cannot be planned any longer, unless
its confirmation is dropped at once. -/
inductive Spent (now : Time) (id : RequestId) (s next : Session φ) :
    List (RequestId × DropReason) → Prop
  | taken :
    next.state.isPlannable id now = false →
    Spent now id s next []
  | returned (reason : DropReason) :
    next.state.isPlannable id now = s.state.isPlannable id now →
    Spent now id s next [(id, reason)]

/-- A request that is spent is no longer plannable, or it is dropped. -/
lemma Spent.perm {lost : List (RequestId × DropReason)} {ids : List RequestId}
    (spent : Spent now id s next lost)
    (others : ∀ other, other ≠ id → next.state.isPlannable other now = s.state.isPlannable other now)
    (distinct : ids.Nodup) (listed : id ∈ ids) (plannable : s.state.isPlannable id now = true) :
    (id :: next.state.plannable now ids).Perm (s.state.plannable now ids ++ lost.map Prod.fst) := by
  cases spent with
  | taken gone =>
    have rest : next.state.plannable now ids = (s.state.plannable now ids).erase id := by
      unfold DispatchState.plannable
      rw [(distinct.filter _).erase_eq_filter, List.filter_filter]
      apply List.filter_congr
      intro other _
      by_cases same : other = id
      · rw [same, gone, bne_self_eq_false, Bool.false_and]
      · rw [others other same, bne_iff_ne.mpr same, Bool.true_and]
    rw [rest, List.map_nil, List.append_nil]
    exact (List.perm_cons_erase (List.mem_filter.mpr ⟨listed, plannable⟩)).symm
  | returned reason again =>
    have rest : next.state.plannable now ids = s.state.plannable now ids := by
      apply List.filter_congr
      intro other _
      by_cases same : other = id
      · rw [same, again]
      · exact others other same
    rw [rest]
    exact (List.perm_append_singleton id _).symm

lemma isPlannable_asking : (s.asking c).state.isPlannable id now =
    (!decide (c.request = id) && s.state.isPlannable id now) := by
  unfold DispatchState.isPlannable
  show (!(s.state.registry.register c).isWaitingRequest id && _) = _
  rw [Registry.isWaitingRequest_register, Bool.not_or, Bool.and_assoc]
  rfl

lemma isPlannable_close (admits : s.state.registry.Admits c) :
    ((s.asking c).close now c).state.isPlannable id now = s.state.isPlannable id now := by
  have same : ((s.state.registry.register c).unregister c).isWaitingRequest id =
      s.state.registry.isWaitingRequest id := by
    rw [Registry.isWaitingRequest_unregister, Registry.isWaitingRequest_register]
    by_cases own : c.request = id
    · rw [← own, admits.request]
      simp
    · simp [own]
  unfold DispatchState.isPlannable
  show (!((s.state.registry.register c).unregister c).isWaitingRequest id && _) = _
  rw [same]
  rfl

lemma isPlannable_commitRide {fleet : φ} : (s.commitRide c fleet).state.isPlannable id now =
    (!decide (c.request = id) && s.state.isPlannable id now) := by
  have erased : (s.commitRide c fleet).state.queue.get? id =
      if c.request = id then none else s.state.queue.get? id := RequestQueue.get?_erase
  unfold DispatchState.isPlannable
  rw [erased]
  by_cases own : c.request = id
  · rw [if_pos own, decide_eq_true own]
    exact Bool.and_false _
  · rw [if_neg own, decide_eq_false own]
    rfl

variable [Fleet φ]

/-- What it means for the accounts that a driver is asked for a queued request. The other requests are as
plannable as before. -/
lemma openConfirmation_adds (sound : s.state.Sound) (queued : s.state.queue.get? p.request = some request)
    (made : s.openConfirmation now p = .ok (placement, next)) :
    ∃ lost, s.Adds next [p.request] [] lost ∧ Spent now p.request s next lost ∧
      ∀ id, id ≠ p.request → next.state.isPlannable id now = s.state.isPlannable id now := by
  obtain ⟨opened, unmatched⟩ := openConfirmation_counts queued made
  have openings : next.openings.map ConfirmationEvent.request =
      s.openings.map ConfirmationEvent.request ++ [p.request] := by
    rw [openConfirmation_opens queued made, List.map_append, ← sound.queue _ _ queued]
    rfl
  cases openConfirmation_fate queued made with
  | waits opens =>
    obtain ⟨own, _⟩ := opens.ends sound
    rw [← own] at openings ⊢
    refine ⟨[], ⟨rfl, openings, opened, unmatched, (List.append_nil _).symm, nofun⟩, .taken ?_, ?_⟩
    · exact isPlannable_asking.trans (by rw [decide_eq_true rfl]; rfl)
    · intro id other
      exact isPlannable_asking.trans (by rw [decide_eq_false other.symm]; rfl)
  | rides opens =>
    obtain ⟨own, _⟩ := opens.ends sound
    rw [← own] at openings ⊢
    refine ⟨[], ⟨rfl, openings, opened, unmatched, (List.append_nil _).symm, nofun⟩, .taken ?_, ?_⟩
    · rw [isPlannable_commitRide, decide_eq_true rfl]
      rfl
    · intro id other
      rw [isPlannable_commitRide, decide_eq_false other.symm]
      exact isPlannable_close opens.admits
  | @drops c refusal opens =>
    obtain ⟨own, _⟩ := opens.ends sound
    rw [← own] at openings ⊢
    refine ⟨[(c.request, refusal.reason)], ⟨rfl, openings, opened, unmatched, rfl, ?_⟩,
      .returned refusal.reason (isPlannable_close opens.admits),
      fun id _ => isPlannable_close opens.admits⟩
    intro drop member
    rw [List.mem_singleton.mp member]
    exact List.mem_singleton_self _

end Session

/-! ## Greedy passes -/

/-- The middle parts of four may change places. -/
lemma exchange {α : Type} (a b c d : List α) : ((a ++ b) ++ (c ++ d)).Perm ((a ++ c) ++ (b ++ d)) := by
  rw [List.append_assoc, List.append_assoc]
  exact (List.perm_append_comm_assoc b c d).append_left a

namespace Greedy

variable {φ : Type} [Fleet φ] {s : Session φ} {ctx : CycleContext} {limit : Nat} {id : RequestId}

/-- At its turn a plannable request is asked for or counted as unmatched. -/
lemma Turn.adds {left left' : Nat × Session φ} (h : Turn ctx limit id left left')
    (sound : left.2.state.Sound) :
    ∃ asked missed lost, left.2.Adds left'.2 asked missed lost ∧
      asked ++ missed = left.2.state.plannable ctx.now [id] ∧ ∀ other, other ≠ id →
        left'.2.state.isPlannable other ctx.now = left.2.state.isPlannable other ctx.now := by
  cases h with
  | @passes idle s unplannable =>
    refine ⟨[], [], [], .refl s, ?_, fun _ _ => rfl⟩
    simp [DispatchState.plannable, unplannable]
  | @exhausted s plannable =>
    refine ⟨[], [id], [], .miss s [id], ?_, fun _ _ => rfl⟩
    simp [DispatchState.plannable, plannable]
  | @unserved idle s astray plannable =>
    refine ⟨[], [id], [], (Session.Adds.note s astray).trans (.miss _ [id]), ?_, fun _ _ => rfl⟩
    simp [DispatchState.plannable, plannable]
  | @asks idle s next astray request pairing placement plannable queued best made =>
    obtain rfl := sound.queue _ _ queued
    have own := (bestVehicle?_eq_some best).1
    obtain ⟨lost, adds, _, others⟩ := Session.openConfirmation_adds (s := s.note astray) sound
      (own ▸ queued) made
    rw [own] at adds others
    refine ⟨[request.id], [], lost, (Session.Adds.note s astray).trans adds, ?_, others⟩
    simp [DispatchState.plannable, plannable]

/-- Where requests choose, just the plannable ones are asked for or counted as unmatched. -/
lemma offerRequests_adds (ctx : CycleContext) (limit : Nat) {ids : List RequestId} (sound : s.state.Sound)
    (distinct : ids.Nodup) (idle : Nat) :
    ∃ asked missed lost, s.Adds (offerRequests ctx limit ids idle s).session asked missed lost ∧
      (asked ++ missed).Perm (s.state.plannable ctx.now ids) := by
  induction ids generalizing idle s with
  | nil => exact ⟨[], [], [], .refl s, .refl _⟩
  | cons id rest ih =>
    obtain ⟨absent, distinct⟩ := List.nodup_cons.mp distinct
    obtain ⟨turned, pass⟩ := turn_spec ctx limit id sound idle
    obtain ⟨asked, missed, lost, first, one, others⟩ := turned.adds sound
    obtain ⟨asked', missed', lost', second, more⟩ :=
      ih ((turn_steps (idle, s)).sound sound) distinct (turn ctx limit (idle, s) id).1
    rw [pass rest]
    refine ⟨_, _, _, first.trans second, ?_⟩
    -- the turn leaves the other requests as plannable as they were
    have same : (turn ctx limit (idle, s) id).2.state.plannable ctx.now rest =
        s.state.plannable ctx.now rest :=
      List.filter_congr fun other member => others other fun e => absent (e ▸ member)
    have whole : s.state.plannable ctx.now (id :: rest) =
        (asked ++ missed) ++ s.state.plannable ctx.now rest := by
      rw [one]
      exact List.filter_append [id] rest
    rw [same] at more
    rw [whole]
    exact (exchange asked asked' missed missed').trans (more.append_left _)

/-- The choice of a vehicle spends at most one of the plannable requests. -/
lemma Choice.adds {next : Session φ} {vehicle : VehicleEntry} {planning : List RequestId}
    (h : Choice ctx limit vehicle s next) (sound : s.state.Sound) (distinct : planning.Nodup)
    (listed : ∀ id, s.state.isPlannable id ctx.now = true → id ∈ planning) :
    ∃ asked lost, s.Adds next asked [] lost ∧
      (asked ++ next.state.plannable ctx.now planning).Perm
        (s.state.plannable ctx.now planning ++ lost.map Prod.fst) ∧
      ∀ id, next.state.isPlannable id ctx.now = true → id ∈ planning := by
  cases h with
  | passes => exact ⟨[], [], .refl s, by simp, listed⟩
  | unserved astray => exact ⟨[], [], .note s astray, by simp [Session.note], listed⟩
  | @asks _ astray pairing _ _ best made =>
    obtain ⟨_, r, candidate, own, _⟩ := bestRequest?_eq_some best
    obtain ⟨plannable, queued⟩ := plannable_of_mem_candidateRequests sound candidate
    rw [own] at plannable queued
    obtain ⟨lost, adds, spent, others⟩ := Session.openConfirmation_adds (s := s.note astray) sound queued made
    refine ⟨_, lost, (Session.Adds.note s astray).trans adds,
      spent.perm others distinct (listed _ plannable) plannable, ?_⟩
    intro id still
    by_cases same : id = pairing.request
    · exact same ▸ listed _ plannable
    · exact listed id ((others id same).symm.trans still)

/-- Where vehicles choose, those that are asked for and those that are plannable in the end are the ones that
were plannable, and once more those whose confirmations have been dropped. -/
lemma offerVehicles_adds (limit : Nat) (vehicles : List VehicleEntry) {planning : List RequestId}
    (sound : s.state.Sound) (distinct : planning.Nodup)
    (listed : ∀ id, s.state.isPlannable id ctx.now = true → id ∈ planning) :
    let final := (offerVehicles ctx limit vehicles s).session
    ∃ asked lost, s.Adds final asked [] lost ∧
      (asked ++ final.state.plannable ctx.now planning).Perm
        (s.state.plannable ctx.now planning ++ lost.map Prod.fst) := by
  induction vehicles generalizing s with
  | nil => exact ⟨[], [], .refl s, by simp [offerVehicles]⟩
  | cons vehicle rest ih =>
    rcases offerVehicles_cons ctx limit vehicle sound with ⟨_, done⟩ | ⟨next, choice, pass⟩
    · rw [done rest]
      exact ⟨[], [], .refl s, by simp⟩
    · rw [pass rest]
      obtain ⟨asked, lost, adds, first, listed'⟩ := choice.adds sound distinct listed
      obtain ⟨asked', lost', more, later⟩ := ih (choice.steps.sound sound) listed'
      refine ⟨_, _, adds.trans more, ?_⟩
      calc
        ((asked ++ asked') ++ _).Perm (asked ++ (_ ++ lost'.map Prod.fst)) := by
          rw [List.append_assoc]
          exact later.append_left asked
        (asked ++ (_ ++ lost'.map Prod.fst)).Perm _ := by
          rw [List.map_append, ← List.append_assoc, ← List.append_assoc]
          exact first.append_right _

/-- Either way, plannable requests are asked for or counted as unmatched. Where vehicles choose, those whose
confirmations have been dropped are so once more. -/
lemma schedule_adds {settings : Settings} {planning : List RequestId} {snapshot : Snapshot}
    (sound : s.state.Sound) (distinct : planning.Nodup)
    (listed : ∀ id, s.state.isPlannable id ctx.now = true → id ∈ planning)
    (none_ : s.report.unmatched = 0) :
    ∃ asked missed lost, s.Adds (schedule settings ctx planning snapshot s).session asked missed lost ∧
      (asked ++ missed).Perm (s.state.plannable ctx.now planning ++
        if vehicleInitiated settings.goal snapshot then lost.map Prod.fst else []) := by
  unfold schedule
  split
  · obtain ⟨asked, lost, adds, perm⟩ := offerVehicles_adds settings.nearestRequestsLimit snapshot.idle
      sound distinct listed
    simp only [offerVehicles_defect sound]
    refine ⟨asked, _, lost, ⟨adds.planned, adds.openings, adds.opened, ?_, adds.dropped, adds.own⟩, perm⟩
    -- the count begins anew, but it has been nothing
    rw [none_, Nat.zero_add]
    rfl
  · obtain ⟨asked, missed, lost, adds, perm⟩ := offerRequests_adds ctx settings.nearestVehiclesLimit
      sound distinct snapshot.idleVehicles
    rw [List.append_nil]
    exact ⟨asked, missed, lost, adds, perm⟩

end Greedy

/-! ## Passes over all requests at once -/

namespace Batch

variable {φ : Type} [Fleet φ] {s : Session φ} {now : Time} {snapshot : Snapshot}

lemma openAll_adds (now : Time) (links : List Link) (sound : s.state.Sound)
    (free : ∀ l ∈ links, l.pairing.Free s.state.registry)
    (apart : links.Pairwise fun l l' => l.request.id ≠ l'.request.id ∧ l.vehicle.id ≠ l'.vehicle.id)
    (queued : ∀ l ∈ links, s.state.queue.get? l.request.id = some l.request) :
    ∃ lost, s.Adds (openAll now (links.map Link.pairing) s).session
      (links.map fun l => l.request.id) [] lost := by
  refine openAll_induction (fun links s final =>
    ∃ lost, s.Adds final (links.map fun l => l.request.id) [] lost) ?_ ?_ sound free apart queued
  · intro s
    exact ⟨[], .refl s⟩
  · rintro l rest s next final placement sound queued made ⟨lost', more⟩
    obtain ⟨lost, adds, _⟩ := Session.openConfirmation_adds sound queued made
    exact ⟨lost ++ lost', adds.trans more⟩

/-- Of several things, those that are not among some different ones of them are the rest. -/
lemma exists_rest {α : Type} [DecidableEq α] {part whole : List α} (distinct : part.Nodup)
    (among : part ⊆ whole) : ∃ rest, (part ++ rest).Perm whole := by
  obtain ⟨part', same, sublist⟩ := List.subperm_of_subset distinct among
  obtain ⟨rest, perm⟩ := sublist.exists_perm_append
  exact ⟨rest, (same.symm.append_right rest).trans perm.symm⟩

/-- The plannable requests are asked for or counted as unmatched. -/
lemma schedule_adds [Matching.Solver] [Matching.LawfulSolver] (settings : Settings) (resolution : Resolution)
    (ctx : CycleContext) (sound : s.state.Sound)
    (distinctRequests : (snapshot.requests.map RequestEntry.id).Nodup)
    (distinctVehicles : (snapshot.vehicles.map VehicleEntry.id).Nodup) :
    ∃ asked missed lost, s.Adds (schedule settings resolution ctx snapshot s).session asked missed lost ∧
      (asked ++ missed).Perm ((plannableRequests s.state snapshot ctx.now).map Request.id) := by
  cases none_ : (plannableRequests s.state snapshot ctx.now).isEmpty with
  | true =>
    have idle : schedule settings resolution ctx snapshot s = { session := s } := if_pos none_
    rw [idle, List.isEmpty_iff.mp none_]
    exact ⟨[], [], [], .refl s, .refl _⟩
  | false =>
    obtain ⟨astray, opened⟩ :=
      schedule_eq settings resolution ctx sound distinctRequests distinctVehicles none_
    rw [opened]
    have best : (graph settings resolution ctx.router (plannableRequests s.state snapshot ctx.now)
        (freeVehicles s.state snapshot)).IsBest (chosenLinks settings resolution ctx.router
          (plannableRequests s.state snapshot ctx.now) (freeVehicles s.state snapshot)) :=
      chosenLinks_best (nodup_plannableRequests sound distinctRequests) (nodup_freeVehicles distinctVehicles)
    revert best
    generalize chosenLinks settings resolution ctx.router (plannableRequests s.state snapshot ctx.now)
      (freeVehicles s.state snapshot) = chosen
    intro best
    have listed (l : Link) (member : l ∈ chosen) :
        l.request ∈ plannableRequests s.state snapshot ctx.now ∧
          l.vehicle ∈ freeVehicles s.state snapshot := by
      obtain ⟨c, row, column, _⟩ := (best.edges l member).near
      exact ⟨List.mem_of_getElem? row, List.mem_of_getElem? column⟩
    obtain ⟨missed, perm⟩ : ∃ missed, ((chosen.map fun l => l.request.id) ++ missed).Perm
        ((plannableRequests s.state snapshot ctx.now).map Request.id) := by
      apply exists_rest
      · exact List.pairwise_map.mpr (best.apart.imp And.left)
      · intro id member
        obtain ⟨l, chosen, rfl⟩ := List.mem_map.mp member
        exact List.mem_map_of_mem (listed l chosen).1
    have count : (plannableRequests s.state snapshot ctx.now).length - chosen.length = missed.length := by
      have total := perm.length_eq
      rw [List.length_append, List.length_map, List.length_map] at total
      omega
    rw [count]
    obtain ⟨lost, adds⟩ := openAll_adds ctx.now chosen
      (s := { s.note astray with report := s.report.addUnmatched missed.length }) sound
      (fun l member => free_of_mem sound (listed l member).1 (listed l member).2) best.apart
      (fun l member => queued_of_mem sound (listed l member).1)
    have all := (Session.Adds.note s astray).trans ((Session.Adds.miss (s.note astray) missed).trans adds)
    rw [List.append_nil] at all
    exact ⟨_, missed, lost, all, perm⟩

end Batch

/-! ## Cycles -/

/-- Consuming confirmations opens none, and nothing is counted as unmatched. -/
lemma Session.consumeAll_counts {φ : Type} [Fleet φ] {s : Session φ} (now : Time)
    (ids : List ConfirmationId) (sound : s.state.Sound) :
    (s.consumeAll now ids).openings = s.openings ∧
      (s.consumeAll now ids).report.opened = s.report.opened ∧
      (s.consumeAll now ids).report.unmatched = s.report.unmatched := by
  induction ids generalizing s with
  | nil => exact ⟨rfl, rfl, rfl⟩
  | cons id rest ih =>
    have after : (s.consume now id).2.state.Sound := consume_sound sound
    have counts : (s.consume now id).2.report.opened = s.report.opened ∧
        (s.consume now id).2.report.unmatched = s.report.unmatched := consume_counts
    obtain ⟨openings, opened, unmatched⟩ := ih after
    obtain ⟨opened', unmatched'⟩ := counts
    refine ⟨openings.trans ?_, opened.trans opened', unmatched.trans unmatched'⟩
    cases found : s.state.registry.get? id with
    | none => rw [consume_of_absent found]
    | some c =>
      obtain ⟨held, rfl⟩ := sound.registry.get?_eq_some.mp found
      exact consume_openings held

namespace Dispatcher

variable {φ : Type} [Fleet φ] {d : Dispatcher} {now : Time} {fleet : φ} {ctx : CycleContext} {id : RequestId}

/-- The requests that a cycle plans although they have expired. -/
def expired (d : Dispatcher) (now : Time) (fleet : φ) : List RequestId :=
  (d.plans now fleet).filter fun id => ((d.settle now fleet).state.queue.get? id).any (·.isExpired now)

/-- Whether vehicles choose in a cycle. -/
def vehiclesChoose (d : Dispatcher) (now : Time) (fleet : φ) : Bool :=
  d.settings.strategy = .ruleBased && Greedy.vehicleInitiated d.settings.goal (d.view now fleet)

/-- When a cycle begins to make pairings it has opened no confirmation, and it has counted no request as
unmatched. -/
lemma planned_counts (now : Time) (fleet : φ) (sound : d.state.Sound) : (d.planned now fleet).openings = [] ∧
    (d.planned now fleet).report.opened = 0 ∧ (d.planned now fleet).report.unmatched = 0 := by
  have synced : (d.synced now fleet).state.Sound := synced_sound sound
  obtain ⟨openings, opened, unmatched⟩ := Session.consumeAll_counts now
    (d.synced now fleet).state.registry.completedIds synced
  unfold planned
  simp only [settle_eq]
  split
  · exact ⟨openings, opened, unmatched⟩
  · exact ⟨openings, opened, unmatched⟩

lemma nodup_plans : (d.plans now fleet).Nodup := RequestQueue.nodup_ids.filter _

lemma mem_plans : id ∈ d.plans now fleet ↔ (∃ r, (d.settle now fleet).state.queue.get? id = some r) ∧
    (d.settle now fleet).state.registry.isWaitingRequest id = false := by
  unfold plans planning
  rw [List.mem_filter, Bool.not_eq_true', ← Option.isSome_iff_exists, ← RequestQueue.contains_eq_isSome]
  exact and_congr_left' Std.ExtTreeMap.mem_keys

/-- When a cycle begins to make pairings it can plan what it plans and what has not expired. -/
lemma isPlannable_planned : (d.planned now fleet).state.isPlannable id now = true ↔
    id ∈ d.plans now fleet ∧
      ((d.settle now fleet).state.queue.get? id).any (·.isExpired now) = false := by
  have queue : (d.planned now fleet).state.queue.get? id =
      ((d.settle now fleet).state.queue.get? id).map fun r => r.tried ((d.plans now fleet).count id) :=
    RequestQueue.get?_countAttempts
  rw [DispatchState.isPlannable_iff, mem_plans, queue]
  cases (d.settle now fleet).state.queue.get? id with
  | none => simp
  | some r =>
    simp only [Option.map_some, Option.some.injEq, exists_eq_left', exists_eq', true_and, Option.any_some]
    rfl

lemma plannable_planned : (d.planned now fleet).state.plannable now (d.plans now fleet) =
    (d.plans now fleet).filter fun id =>
      !((d.settle now fleet).state.queue.get? id).any (·.isExpired now) := by
  apply List.filter_congr
  intro id member
  rw [Bool.eq_iff_iff, isPlannable_planned, Bool.not_eq_true']
  exact and_iff_right member

lemma perm_plannableRequests (sound : d.state.Sound) :
    ((Batch.plannableRequests (d.planned now fleet).state (d.view now fleet) now).map Request.id).Perm
      ((d.planned now fleet).state.plannable now (d.plans now fleet)) := by
  have sound' := planned_sound now fleet sound
  refine (List.perm_ext_iff_of_nodup ?_ (nodup_plans.filter _)).mpr ?_
  · exact Batch.nodup_plannableRequests sound' (nodup_view_requests now fleet sound)
  · intro id
    constructor
    · intro member
      obtain ⟨r, listed, rfl⟩ := List.mem_map.mp member
      have plannable := Batch.plannable_of_mem sound' listed
      exact List.mem_filter.mpr ⟨(isPlannable_planned.mp plannable).1, plannable⟩
    · intro member
      obtain ⟨listed, plannable⟩ := List.mem_filter.mp member
      obtain ⟨free, r, queued, inTime⟩ := DispatchState.isPlannable_iff.mp plannable
      obtain rfl := sound'.queue _ _ queued
      let entry : RequestEntry := ⟨r.id, r.origin, r.earliestStart, r.isUrgent now⟩
      have seen : entry ∈ (d.view now fleet).requests := by
        refine List.mem_map.mpr ⟨r, List.mem_filter.mpr ⟨?_, ?_⟩, rfl⟩
        · exact List.mem_filterMap.mpr ⟨r.id, listed, queued⟩
        · rw [free, inTime]
          rfl
      refine List.mem_map.mpr ⟨r, List.mem_filterMap.mpr ⟨entry, ?_, queued⟩, rfl⟩
      exact List.mem_filter.mpr ⟨seen, plannable⟩

/-- A cycle asks for the requests that it plans in time or counts them as unmatched. Where vehicles choose,
those whose confirmations have been dropped in the pass are so once more. -/
lemma pass_adds (ctx : CycleContext) (fleet : φ) (sound : d.state.Sound)
    (distinct : ∀ fleet : φ, (Fleet.vehicleIds fleet).Nodup) :
    ∃ asked missed lost, (d.planned ctx.now fleet).Adds (d.pass ctx fleet).session asked missed lost ∧
      (asked ++ missed).Perm ((d.planned ctx.now fleet).state.plannable ctx.now (d.plans ctx.now fleet) ++
        if d.vehiclesChoose ctx.now fleet then lost.map Prod.fst else []) := by
  have sound' := planned_sound ctx.now fleet sound
  unfold pass
  split
  · rename_i none_
    rw [List.isEmpty_iff.mp none_]
    exact ⟨[], [], [], .refl _, by simp [DispatchState.plannable]⟩
  · unfold Session.schedule vehiclesChoose
    split
    · rename_i strategy
      rw [strategy, decide_eq_true rfl, Bool.true_and]
      exact Greedy.schedule_adds sound' nodup_plans (fun id plannable => (isPlannable_planned.mp plannable).1)
        (planned_counts _ _ sound).2.2
    · rename_i strategy
      rw [strategy, decide_eq_false nofun, Bool.false_and]
      obtain ⟨asked, missed, lost, adds, perm⟩ := Batch.schedule_adds d.settings d.resolution ctx sound'
        (nodup_view_requests ctx.now fleet sound) (Snapshot.nodup_vehicles (distinct _))
      exact ⟨asked, missed, lost, adds, by simpa using perm.trans (perm_plannableRequests sound)⟩

/-- In whatever order requests have been submitted and given up and cycles have been run, whatever fleet and
router each of them had, and by either strategy: in the next cycle each planned request has expired, or has
been asked for, or is counted as unmatched, just once. There is one exception. Where vehicles choose, the
unmatched requests are those that are plannable in the end, and that is also so of a request whose
confirmation has been opened and dropped in the pass; it is counted once more for each such confirmation.
So the counts of the report balance just if there is none, or vehicles do not choose. -/
theorem accounts (settings : Settings) (resolution : Resolution) (calls : List (Call ScheduledFleet))
    (ctx : CycleContext) (fleet : ScheduledFleet) :
    let d := ((fresh settings resolution).serve calls).1
    let result := d.runCycle ctx fleet
    let plans := d.plans ctx.now fleet
    let expired := d.expired ctx.now fleet
    let asked := (result.events.filter fun e => e.stage = .created).map ConfirmationEvent.request
    ∃ report missed lost, result.report = .ok report ∧
      report.planned = plans.length ∧ report.opened = asked.length ∧ report.unmatched = missed.length ∧
      report.dropped = (d.planned ctx.now fleet).report.dropped ++ lost ∧
      (∀ drop ∈ lost, drop.1 ∈ asked) ∧ plans.Nodup ∧
      let again := if d.vehiclesChoose ctx.now fleet then lost.map Prod.fst else []
      (expired ++ (asked ++ missed)).Perm (plans ++ again) ∧
      report.planned + again.length = expired.length + report.opened + report.unmatched ∧
      (report.planned = expired.length + report.opened + report.unmatched ↔
        d.vehiclesChoose ctx.now fleet = false ∨ lost = []) := by
  intro d result plans expired asked
  have sound : d.state.Sound := serve_sound (.empty _ _)
  obtain ⟨openings, opened, unmatched⟩ := planned_counts ctx.now fleet sound
  obtain ⟨asked', missed, lost, adds, perm⟩ := pass_adds ctx fleet sound ScheduledFleet.nodup_vehicleIds
  have same : asked = asked' := by
    refine adds.openings.trans ?_
    rw [openings]
    rfl
  have whole : (expired ++ (asked ++ missed)).Perm
      (plans ++ if d.vehiclesChoose ctx.now fleet then lost.map Prod.fst else []) := by
    rw [same]
    refine (perm.append_left expired).trans ?_
    rw [plannable_planned, ← List.append_assoc]
    exact (List.filter_append_perm _ _).append_right _
  have total := whole.length_eq
  rw [List.length_append, List.length_append, List.length_append] at total
  have planned : (d.pass ctx fleet).session.report.planned = plans.length := adds.planned
  have counted : (d.pass ctx fleet).session.report.opened = asked.length := by
    rw [adds.opened, opened, same, Nat.zero_add]
  have missing : (d.pass ctx fleet).session.report.unmatched = missed.length := by
    rw [adds.unmatched, unmatched, Nat.zero_add]
  refine ⟨(d.pass ctx fleet).session.report, missed, lost,
    runCycle_report ctx fleet sound ScheduledFleet.nodup_vehicleIds, planned, counted, missing, adds.dropped,
    same ▸ adds.own, nodup_plans, whole, ?_, ?_⟩
  · omega
  · rw [planned, counted, missing]
    cases choose : d.vehiclesChoose ctx.now fleet with
    | false =>
      rw [choose, if_neg Bool.false_ne_true, List.length_nil] at total
      exact iff_of_true (by omega) (.inl rfl)
    | true =>
      have again : (lost.map Prod.fst).length = lost.length := List.length_map _
      rw [choose, if_pos rfl] at total
      rw [← List.length_eq_zero_iff]
      constructor
      · intro balanced
        exact .inr (by omega)
      · rintro (never | none_)
        · cases never
        · omega

/-- There is a cycle in which a request is asked for and counted as unmatched, too. -/
theorem asked_and_unmatched : ∃ (settings : Settings) (calls : List (Call ScheduledFleet))
    (ctx : CycleContext) (fleet : ScheduledFleet) (report : CycleReport),
    let d := ((fresh settings 9).serve calls).1
    (d.runCycle ctx fleet).report = .ok report ∧
      report.planned ≠ (d.expired ctx.now fleet).length + report.opened + report.unmatched := by
  refine ⟨{ goal := .minPickupTime },
    [.submit (.immediate ⟨1⟩ ⟨11⟩ (.onDiagonal 2) (.onDiagonal 3) 0 none)], ⟨0, Service.steadyRouter⟩,
    ((Service.fresh {} 9 Service.closedRouter ⟨120⟩ ⟨60⟩).run
      [.addVehicle ⟨7⟩ (.onDiagonal 1) 0 .never]).fleet,
    _, runCycle_report _ _ (serve_sound (.empty _ _)) ScheduledFleet.nodup_vehicleIds, ?_⟩
  decide +kernel

end Dispatcher

end RideDispatch

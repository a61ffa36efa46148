import RideDispatch.Proofs.Backing
import RideDispatch.Proofs.Itinerary

/-!
# Pickups on course

The way to a pickup is found when the pairing is made and driven only when the driver has confirmed it. It
is still the right one then: a confirmation is `Aimed` if its way leads from where its vehicle will be to
where its request is, and everything that happens in the meantime keeps it so. Retiring tasks does not move
the place where a vehicle will be, and a vehicle that is asked about one ride is given no other.

`Session.OnCourse` adds that the index knows where vehicles will be and that the fleet has been given
itineraries. Each part of a cycle keeps a session on course (`Dispatcher.pass_onCourse`).
-/

namespace RideDispatch

/-- The way of every confirmation leads from where its vehicle will be to its request. -/
def DispatchState.Aimed (s : DispatchState) (fleet : ScheduledFleet) : Prop :=
  ∀ c, s.registry.Holds c → ∃ r x, s.queue.get? c.request = some r ∧
    fleet.vehicle? c.vehicle = some x ∧ c.pickup.Leads x.finalPlace.link r.origin.link

/-- Every indexed vehicle is indexed where it will be. -/
def Zones.Placed (z : Zones) (fleet : ScheduledFleet) : Prop :=
  ∀ v place, z.vehicles.place? v = some place → ∃ x, fleet.vehicle? v = some x ∧ x.finalPlace = place

/-! ## Fleets move on -/

section Fleet

variable {s : DispatchState} {z : Zones} {f f' : ScheduledFleet} {v id : VehicleId} {now : Time}

lemma ScheduledFleet.finalPlace_advance {x : Vehicle} (id : VehicleId) (now : Time)
    (found : f.vehicle? v = some x) :
    ∃ y, (f.advance id now).2.vehicle? v = some y ∧ y.finalPlace = x.finalPlace := by
  rw [vehicle?_advance]
  split
  · rw [found]
    exact ⟨_, rfl, x.finalPlace_retire now⟩
  · exact ⟨x, found, rfl⟩

lemma DispatchState.Aimed.advance (h : s.Aimed f) : s.Aimed (f.advance id now).2 := by
  refine DispatchState.Backed.advance h ?_
  intro c r x leads
  rw [x.finalPlace_retire now]
  exact leads

lemma Zones.Placed.advance (h : z.Placed f) : z.Placed (f.advance id now).2 := by
  intro v place indexed
  obtain ⟨x, found, rfl⟩ := h v place indexed
  exact ScheduledFleet.finalPlace_advance _ _ found

lemma Zones.Placed.addVehicle {place : Place} {serviceBegin serviceEnd : Time} (h : z.Placed f)
    (added : f.addVehicle id place serviceBegin serviceEnd = .ok f') : z.Placed f' := by
  intro v place indexed
  obtain ⟨x, found, same⟩ := h v place indexed
  exact ⟨x, ScheduledFleet.vehicle?_of_addVehicle added found, same⟩

end Fleet

/-! ## The index -/

lemma ScheduledFleet.place_of_earliestIdleness {f : ScheduledFleet} {v : VehicleId} {now : Time}
    {idleness : Idleness} (h : f.earliestIdleness v now = some idleness) :
    ∃ x, f.vehicle? v = some x ∧ x.finalPlace = idleness.place := by
  unfold earliestIdleness at h
  split at h
  · rename_i x found
    split at h
    · cases h
    · cases h
      exact ⟨x, found, rfl⟩
  · cases h

/-- An index of nothing places no vehicle. -/
lemma Zones.Placed.empty {resolution : Resolution} {f : ScheduledFleet} :
    (Zones.empty resolution).Placed f := by
  intro v place indexed
  have absent : (Zones.empty resolution).vehicles.contains v = false := ZoneMap.contains_empty
  rw [ZoneMap.contains_of_place? indexed] at absent
  cases absent

/-- Idle vehicles are indexed where they will be. -/
lemma Zones.Placed.sync {z : Zones} {f : ScheduledFleet} {now : Time} (h : z.Placed f) :
    (z.syncVehicles f now).2.Placed f := by
  refine syncVehicles_induction
    (fun m => ∀ v place, m.place? v = some place → ∃ x, f.vehicle? v = some x ∧ x.finalPlace = place)
    ?_ ?_ h
  · intro m id home idle before v place indexed
    rw [ZoneMap.place?_insert] at indexed
    split at indexed
    · rename_i same
      subst same
      cases indexed
      unfold idlePlace? at idle
      split at idle
      · obtain ⟨idleness, found, rfl⟩ := Option.map_eq_some_iff.mp idle
        exact ScheduledFleet.place_of_earliestIdleness found
      · cases idle
    · exact before v place indexed
  · intro m id before v place indexed
    rw [ZoneMap.place?_erase] at indexed
    split at indexed
    · cases indexed
    · exact before v place indexed

/-- With the vehicle that is given a ride its place leaves the index. -/
lemma Zones.Placed.commit {z : Zones} {f f' : ScheduledFleet} {id : VehicleId} {request : Request}
    {pickup : Route} {now : Time} (h : z.Placed f) (committed : f.commit id request pickup now = .ok f') :
    (z.eraseVehicle id).Placed f' := by
  intro v place indexed
  replace indexed : (z.vehicles.erase id).place? v = some place := indexed
  rw [ZoneMap.place?_erase] at indexed
  split at indexed
  · cases indexed
  · rename_i other
    obtain ⟨x, found, same⟩ := h v place indexed
    exact ⟨x, (ScheduledFleet.vehicle?_commit other committed).trans found, same⟩

/-! ## Sessions -/

namespace Session

variable {l : Ledger} {base : ScheduledFleet} {excused : Task → Prop} {now : Time}
variable {s s' : Session ScheduledFleet} {c : Confirmation} {p q : Pairing}

/-- Pickups are aimed, the index knows where vehicles will be, and what the fleet has been given since the
beginning are itineraries. -/
structure OnCourse (l : Ledger) (base : ScheduledFleet) (excused : Task → Prop) (now : Time)
    (s : Session ScheduledFleet) : Prop where
  balanced : (l.ride s.report.committed).Balanced s.state s.fleet
  orderly : s.fleet.Orderly
  ways : s.fleet.router.Leads
  aimed : s.state.Aimed s.fleet
  placed : s.state.zones.Placed s.fleet
  extended : base.Extends s.fleet (· ∈ l.submitted) excused now

/-- The way of a pairing leads from where its vehicle will be to its request, if that is queued. -/
def Aims (s : Session ScheduledFleet) (p : Pairing) : Prop :=
  ∀ r, s.state.queue.get? p.request = some r → ∃ x, s.fleet.vehicle? p.vehicle = some x ∧
    p.pickup.Leads x.finalPlace.link r.origin.link

namespace OnCourse

lemma sync (h : s.OnCourse l base excused now) : (s.syncVehicles now).OnCourse l base excused now :=
  { h with balanced := Step.sync.balanced h.balanced, placed := h.placed.sync }

lemma withReport {report : CycleReport} (h : s.OnCourse l base excused now)
    (same : report.committed = s.report.committed) :
    { s with report := report }.OnCourse l base excused now :=
  have step : Step now s { s with report := report } := .tally same
  { h with balanced := step.balanced h.balanced }

lemma note {astray : Bool} (h : s.OnCourse l base excused now) :
    (s.note astray).OnCourse l base excused now :=
  { h with }

lemma attempts (h : s.OnCourse l base excused now) (ids : List RequestId) :
    { s with state := { s.state with
        queue := ids.foldl RequestQueue.countAttempt s.state.queue } }.OnCourse l base excused now := by
  have step : Step now s _ := .attempts ids
  exact { h with
    balanced := step.balanced h.balanced
    aimed := DispatchState.Backed.attempts h.aimed ids fun _ _ _ _ leads => leads }

/-- A confirmation that is opened for a pairing is aimed as the pairing is. -/
lemma asking (h : s.OnCourse l base excused now) (aims : s.Aims p) (opens : s.Opens now p c) :
    (s.asking c).OnCourse l base excused now := by
  have sound := h.balanced.sound
  refine { h with balanced := opens.step.balanced h.balanced, aimed := ?_ }
  refine DispatchState.Backed.asking h.aimed sound opens ?_
  rw [(opens.ends sound).2.2]
  exact aims

/-- A ride that is committed continues the itinerary of its vehicle. -/
lemma extended_of_ok {fleet : ScheduledFleet} (h : s.OnCourse l base excused now)
    (held : s.state.registry.Holds c) (outcome : s.outcome now c = .ok fleet) :
    base.Extends fleet (· ∈ l.submitted) excused now := by
  obtain ⟨_, serves, request, queued, _, committed⟩ := outcome_eq_ok outcome
  replace committed : s.fleet.commit c.vehicle request (c.pickup.retimed now) now = .ok fleet := committed
  obtain ⟨r', x, queued', found, leads⟩ := h.aimed c held
  obtain rfl : request = r' := Option.some.inj (queued.symm.trans queued')
  obtain ⟨r, submitted, n, rfl⟩ := h.balanced.queued _ _ queued
  refine h.extended.commit h.orderly h.ways submitted serves ?_ committed
  intro x' found'
  obtain rfl : x = x' := Option.some.inj (found.symm.trans found')
  exact ⟨leads.departs, leads.arrives⟩

/-- A consumed confirmation leaves the ways of the others right. -/
lemma consume (h : s.OnCourse l base excused now) (held : s.state.registry.Holds c)
    (complete : c.complete = true) : (s.consume now c.id).2.OnCourse l base excused now := by
  have aimed : (s.consume now c.id).2.state.Aimed _ :=
    DispatchState.Backed.consume h.aimed h.balanced.sound held
  cases outcome : s.outcome now c with
  | error refusal =>
    rw [consume_of_error held outcome] at aimed ⊢
    have balanced := (Step.drops held complete outcome).balanced h.balanced
    exact { h with balanced := balanced, aimed := aimed }
  | ok fleet =>
    rw [consume_of_ok held outcome] at aimed ⊢
    have balanced := (Step.commits held complete outcome).balanced h.balanced
    have extended := h.extended_of_ok held outcome
    obtain ⟨_, _, _, _, _, committed⟩ := outcome_eq_ok outcome
    refine ⟨balanced, h.orderly.commit committed, ?_, aimed, h.placed.commit committed, extended⟩
    obtain ⟨_, _, _, _, _, _, _, rfl⟩ := ScheduledFleet.commit_eq_ok committed
    exact h.ways

end OnCourse

/-- A move that makes only aimed pairings keeps the session on course. -/
lemma Move.onCourse {fit : Session ScheduledFleet → Pairing → Prop} (move : Move fit now s s')
    (h : s.OnCourse l base excused now) (aims : ∀ p, fit s p → s.Aims p) :
    s'.OnCourse l base excused now := by
  cases move with
  | sync => exact h.sync
  | attempts ids => exact h.attempts ids
  | tally committed => exact h.withReport committed
  | note => exact h.note
  | settles held complete => exact h.consume held complete
  | asks fits opens => exact h.asking (aims _ fits) opens
  | takes fits opens complete => exact (h.asking (aims _ fits) opens).consume opens.holds complete

end Session

/-! ## Cycles -/

namespace Dispatcher

variable {d : Dispatcher} {fleet : ScheduledFleet} {l : Ledger} {excused : Task → Prop} {now : Time}
variable {ctx : CycleContext}

/-- A cycle begins on course. -/
lemma begin_onCourse (balanced : l.Balanced d.state fleet) (orderly : fleet.Orderly)
    (ways : fleet.router.Leads) (aimed : d.state.Aimed fleet) (placed : d.state.zones.Placed fleet) :
    (d.begin now fleet).OnCourse l fleet excused now where
  balanced := by simpa [Ledger.ride, Dispatcher.begin] using balanced.begin now
  orderly := orderly
  ways := ways
  aimed := by
    refine DispatchState.Backed.begin aimed ?_
    intro c r x leads
    rw [Confirmation.pickup_tick]
    exact leads
  placed := placed
  extended := .refl

/-- The pairings of a cycle are aimed. -/
lemma aims_of_offers {s : Session ScheduledFleet} {p : Pairing} (h : s.OnCourse l fleet excused ctx.now)
    (ways : ctx.router.Leads) (offered : d.Offers ctx fleet s p) : s.Aims p := by
  obtain ⟨r, e, fits⟩ := offered
  intro r' queued
  obtain rfl := Option.some.inj (fits.queued.symm.trans queued)
  have leads : p.pickup.Leads e.place.link r.origin.link := ways _ _ _ _ fits.way
  rcases fits.supplied.near_or_seen with ⟨placed, _⟩ | ⟨x, found, _, place, _⟩
  · obtain ⟨x, found, same⟩ := h.placed _ _ placed
    exact ⟨x, fits.vehicle ▸ found, same ▸ leads⟩
  · exact ⟨x, fits.vehicle ▸ found, place ▸ leads⟩

/-- A cycle stays on course. -/
lemma pass_onCourse (h : (d.begin ctx.now fleet).OnCourse l fleet excused ctx.now)
    (sound : d.state.Sound) (ways : ctx.router.Leads) :
    (d.pass ctx fleet).session.OnCourse l fleet excused ctx.now := by
  have synced : (d.synced ctx.now fleet).OnCourse l fleet excused ctx.now := h.sync
  have moves := synced_moves ctx fleet sound
  generalize (d.pass ctx fleet).session = final at moves
  induction moves with
  | refl => exact synced
  | tail _ move ih => exact move.onCourse ih fun p => aims_of_offers ih ways

end Dispatcher

end RideDispatch

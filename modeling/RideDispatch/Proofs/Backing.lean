import RideDispatch.Proofs.Agreement
import RideDispatch.Proofs.Schedule

/-!
# Confirmations that are backed

Between the opening of a confirmation and its end other requests come and go, other vehicles are given rides
and tasks are retired. Through all of that a confirmation stays `Backed`: its request is queued, its vehicle
belongs to the fleet, and what was agreed on between the three still holds. What that is stays open here, it
is the parameter `agree`; each lemma asks of it only what the event in question can change. What concerns the
request alone is known of confirmations that agree with their requests (`DispatchState.backed_iff`).
-/

namespace RideDispatch

/-- The request of every confirmation is queued, its vehicle belongs to the fleet, and the three agree. -/
def DispatchState.Backed (s : DispatchState) (fleet : ScheduledFleet)
    (agree : Confirmation → Request → Vehicle → Prop) : Prop :=
  ∀ c, s.registry.Holds c → ∃ r x, s.queue.get? c.request = some r ∧
    fleet.vehicle? c.vehicle = some x ∧ agree c r x

lemma DispatchState.backed_iff {s : DispatchState} {fleet : ScheduledFleet}
    {agree : Confirmation → Request → Vehicle → Prop} :
    s.Backed fleet agree ↔ s.Agrees fun c r => ∃ x, fleet.vehicle? c.vehicle = some x ∧ agree c r x := by
  constructor
  · intro h c held
    obtain ⟨r, x, queued, found, agreed⟩ := h c held
    exact ⟨r, queued, x, found, agreed⟩
  · intro h c held
    obtain ⟨r, queued, x, found, agreed⟩ := h c held
    exact ⟨r, x, queued, found, agreed⟩

lemma ScheduledFleet.vehicle?_of_addVehicle {f f' : ScheduledFleet} {v id : VehicleId} {x : Vehicle}
    {place : Place} {serviceBegin serviceEnd : Time}
    (added : f.addVehicle id place serviceBegin serviceEnd = .ok f') (found : f.vehicle? v = some x) :
    f'.vehicle? v = some x := by
  obtain ⟨new, rfl⟩ := addVehicle_eq_ok added
  rw [vehicle?_insert _ f.wakeups, if_neg]
  · exact found
  · rintro rfl
    rw [new] at found
    cases found

namespace DispatchState.Backed

section Fleet

variable {s : DispatchState} {f f' : ScheduledFleet} {id : VehicleId} {now : Time}
variable {agree : Confirmation → Request → Vehicle → Prop}

/-- Tasks may be retired. -/
lemma advance (h : s.Backed f agree)
    (keeps : ∀ c r (x : Vehicle), agree c r x → agree c r (x.retire now).2) :
    s.Backed (f.advance id now).2 agree := by
  intro c held
  obtain ⟨r, x, queued, found, agreed⟩ := h c held
  rw [ScheduledFleet.vehicle?_advance, found]
  split
  · exact ⟨r, _, queued, rfl, keeps c r x agreed⟩
  · exact ⟨r, x, queued, rfl, agreed⟩

/-- Vehicles may join the fleet. -/
lemma addVehicle {place : Place} {serviceBegin serviceEnd : Time} (h : s.Backed f agree)
    (added : f.addVehicle id place serviceBegin serviceEnd = .ok f') : s.Backed f' agree := by
  intro c held
  obtain ⟨r, x, queued, found, agreed⟩ := h c held
  exact ⟨r, x, queued, ScheduledFleet.vehicle?_of_addVehicle added found, agreed⟩

end Fleet

section Requests

variable {d : Dispatcher} {f : ScheduledFleet} {now : Time}
variable {agree : Confirmation → Request → Vehicle → Prop}

/-- Requests may be submitted, also again. -/
lemma submit {request : Request} (h : d.state.Backed f agree)
    (keeps : ∀ c r x, d.state.queue.get? c.request = some r → request.id = c.request → agree c r x →
      agree c request x) : (d.submit request).state.Backed f agree := by
  refine backed_iff.mpr ((backed_iff.mp h).submit ?_)
  intro c held same
  obtain ⟨r, x, queued, found, agreed⟩ := h c held
  exact ⟨x, found, keeps c r x queued same.symm agreed⟩

/-- With a request that is given up its confirmation goes. -/
lemma withdraw {id : RequestId} {w : Withdrawal} (h : d.state.Backed f agree) (sound : d.state.Sound)
    (gone : d.withdraw id now = some w) : w.dispatcher.state.Backed f agree :=
  backed_iff.mpr ((backed_iff.mp h).withdraw sound gone)

/-- Drivers may accept. -/
lemma begin (h : d.state.Backed f agree) (keeps : ∀ c r x, agree c r x → agree (c.tick now) r x) :
    (d.begin now f).state.Backed f agree := by
  refine backed_iff.mpr ((backed_iff.mp h).begin f ?_)
  rintro c r ⟨x, found, agreed⟩
  rw [Confirmation.vehicle_tick]
  exact ⟨x, found, keeps c r x agreed⟩

end Requests

section Sessions

open Session

variable {s : Session ScheduledFleet} {now : Time} {c : Confirmation} {p : Pairing}
variable {agree : Confirmation → Request → Vehicle → Prop}

lemma attempts (h : s.state.Backed s.fleet agree) (ids : List RequestId)
    (keeps : ∀ c r x n, agree c r x → agree c (r.tried n) x) :
    { s.state with queue := ids.foldl RequestQueue.countAttempt s.state.queue }.Backed s.fleet agree := by
  refine backed_iff.mpr ((backed_iff.mp h).attempts ids ?_)
  rintro c r n ⟨x, found, agreed⟩
  exact ⟨x, found, keeps c r x n agreed⟩

/-- A confirmation that is opened is backed if its pairing is. -/
lemma asking (h : s.state.Backed s.fleet agree) (sound : s.state.Sound) (opens : s.Opens now p c)
    (own : ∀ r, s.state.queue.get? p.request = some r →
      ∃ x, s.fleet.vehicle? p.vehicle = some x ∧ agree c r x) :
    (s.asking c).state.Backed (s.asking c).fleet agree := by
  obtain ⟨_, vehicle, _⟩ := opens.ends sound
  refine backed_iff.mpr ((backed_iff.mp h).asking sound opens ?_)
  rw [vehicle]
  exact own

/-- Consuming a confirmation leaves the others backed, which are for other requests and other vehicles. -/
lemma consume (h : s.state.Backed s.fleet agree) (sound : s.state.Sound)
    (held : s.state.registry.Holds c) :
    (s.consume now c.id).2.state.Backed (s.consume now c.id).2.fleet agree := by
  refine backed_iff.mpr ((backed_iff.mp h).consume sound held ?_)
  rintro c' r vehicle ⟨x, found, agreed⟩
  cases outcome : s.outcome now c with
  | error refusal =>
    rw [consume_of_error held outcome]
    exact ⟨x, found, agreed⟩
  | ok fleet =>
    rw [consume_of_ok held outcome]
    obtain ⟨_, _, _, _, _, committed⟩ := outcome_eq_ok outcome
    exact ⟨x, (ScheduledFleet.vehicle?_commit vehicle.symm committed).trans found, agreed⟩

end Sessions

end DispatchState.Backed

end RideDispatch

import RideDispatch.Proofs.Agreement
import RideDispatch.Proofs.Schedule
import RideDispatch.Proofs.Service
import RideDispatch.Proofs.Ways

/-!
# Requests that are submitted again

A confirmation takes down the passenger of its request and the way to the pickup. The request is looked up
again when the ride is given, and what the fleet takes is the request as it is queued then. A request that is
submitted again replaces the queued one, but nobody asks whether a confirmation is held for it. So the two
agree as long as what is submitted again agrees with the confirmation, and no longer
(`Dispatcher.described_iff`). A ride can be reported for one passenger and given for another
(`Service.rides_of_another_passenger`).
-/

namespace RideDispatch

/-- The driver is asked on behalf of the passenger of the request. -/
def Confirmation.NamesPassenger (c : Confirmation) (r : Request) : Prop := c.passenger = r.passenger

/-- The planned drive ends on the link on which the request begins. -/
def Confirmation.ReachesPickup (c : Confirmation) (r : Request) : Prop :=
  c.pickup.links.getLast? = some r.origin.link

/-- Every route ends with the link that is reached. -/
def Router.Arrives (r : Router) : Prop :=
  ∀ origin target departure route, r.route? origin target departure = some route →
    route.links.getLast? = some target.link

lemma Router.Leads.arrives {r : Router} (h : r.Leads) : r.Arrives :=
  fun _ _ _ _ found => (h _ _ _ _ found).arrives

/-- A router that knows three routes. -/
def Router.fewWays : Router := .ofTable [⟨⟨1⟩, ⟨2⟩, ⟨1000⟩⟩, ⟨⟨2⟩, ⟨3⟩, ⟨1000⟩⟩, ⟨⟨4⟩, ⟨5⟩, ⟨1000⟩⟩]

/-- The tasks of a ride are for the passenger of the request. -/
lemma ScheduledFleet.passenger_of_mem_ride {f : ScheduledFleet} {request : Request} {pickup occupied : Route}
    {start : Time} {t : Task} (member : t ∈ f.ride request pickup occupied start) :
    t.passenger = request.passenger := by
  simp only [ride, List.mem_cons, List.not_mem_nil, or_false] at member
  rcases member with rfl | rfl | rfl | rfl <;> rfl

/-! ## What is agreed on when a confirmation is opened -/

section Opening

variable {φ : Type} {s : Session φ} {now : Time} {p : Pairing} {c : Confirmation} {r : Request}

lemma Session.Opens.eq_newConfirmation (opens : s.Opens now p c)
    (queued : s.state.queue.get? p.request = some r) :
    c = s.state.registry.newConfirmation r p.vehicle p.pickup now := by
  obtain ⟨request, found, added⟩ := opens
  obtain rfl : request = r := Option.some.inj (found.symm.trans queued)
  exact (Registry.add_eq_ok added).1

lemma Session.opensWith_namesPassenger {fit : Session φ → Pairing → Prop} :
    OpensWith fit now Confirmation.NamesPassenger := by
  intro s p c r _ opens queued
  rw [opens.eq_newConfirmation queued]
  rfl

lemma Dispatcher.opensWith_reachesPickup [Fleet φ] {ctx : CycleContext} {fleet : φ} (d : Dispatcher)
    (arrives : ctx.router.Arrives) :
    Session.OpensWith (d.Offers ctx fleet) ctx.now Confirmation.ReachesPickup := by
  rintro s p c r ⟨r', e, fits⟩ opens queued
  obtain rfl := Option.some.inj (fits.queued.symm.trans queued)
  rw [opens.eq_newConfirmation queued]
  exact arrives _ _ _ _ fits.way

lemma Confirmation.lasting_namesPassenger : Lasting NamesPassenger where
  tick _ named := passenger_tick.trans named
  tried _ named := named

lemma Confirmation.lasting_reachesPickup : Lasting ReachesPickup where
  tick _ reaches := by
    unfold ReachesPickup
    rw [pickup_tick]
    exact reaches
  tried _ reaches := reaches

end Opening

/-! ## Rides -/

namespace Dispatcher

variable {φ : Type} [Fleet φ] {d : Dispatcher} {ctx : CycleContext} {fleet : φ}

/-- A ride that a cycle reports: the world has been told of the opening of its confirmation, and is told of
its end in the cycle; and the fleet takes a request of that identity in the cycle. If confirmations name the
passengers of their requests, it is for the same passenger. -/
lemma ride_taken {past : List ConfirmationEvent} (sound : d.state.Sound) (tells : d.state.registry.Tells past)
    {ride : CommittedRide} (member : ride ∈ (d.pass ctx fleet).session.report.committed) :
    ∃ opening ∈ past ++ (d.runCycle ctx fleet).events, ∃ closing ∈ (d.runCycle ctx fleet).events,
      opening.stage = .created ∧ closing.Closes opening ∧
      ride = ⟨opening.request, opening.passenger, opening.vehicle⟩ ∧
      ∃ s s' request pickup, d.Amid ctx fleet s ∧ d.Amid ctx fleet s' ∧
        Fleet.commit s.fleet ride.vehicle request pickup ctx.now = .ok s'.fleet ∧
        request.id = ride.request ∧
        (d.state.Agrees Confirmation.NamesPassenger → request.passenger = ride.passenger) := by
  obtain ⟨earlier, later, told⟩ := List.append_of_mem member
  obtain ⟨s, t, c, taken, before, given, after, _, rfl⟩ := exists_ride sound told
  have soundHere : s.state.Sound := Session.Moves.sound before (synced_sound sound)
  have first : Session.Steps ctx.now (d.begin ctx.now fleet) t :=
    .head .sync (before.steps.trans given.steps)
  have soundThere : t.state.Sound := Session.Steps.sound first (begin_sound sound)
  -- the end of the confirmation is told next
  have rest : t.events ++ [c.completedEvent ctx.now] <+: (d.runCycle ctx fleet).events :=
    (Session.Moves.continues after).events
  obtain ⟨_, _, request, queued, _, committed⟩ := Session.outcome_eq_ok given.outcome
  have opened : Unclosed (past ++ t.events) c.createdEvent := by
    have start : (d.begin ctx.now fleet).state.registry.Tells (past ++ []) := by
      rw [List.append_nil]
      exact tells.tick
    have here := Session.Steps.tells first (begin_sound sound) start
    exact (here.unclosed_iff soundThere.registry).mpr
      ⟨c, soundThere.registry.mem_toList.mpr given.held, rfl⟩
  obtain ⟨front, back, all, _⟩ := opened
  refine ⟨c.createdEvent, ?_, c.completedEvent ctx.now, rest.subset (by simp), rfl, ⟨⟨_, rfl⟩, rfl, rfl, rfl⟩,
    rfl, t, (t.close ctx.now c).commitRide c taken, request, c.pickup.retimed ctx.now,
    ⟨first, .head given.step after.steps⟩, ⟨first.tail given.step, after.steps⟩, committed,
    soundThere.queue _ _ queued, ?_⟩
  · have told : c.createdEvent ∈ past ++ t.events := by
      rw [all]
      simp
    rcases List.mem_append.mp told with old | new
    · exact List.mem_append_left _ old
    · exact List.mem_append_right _ (rest.subset (List.mem_append_left _ new))
  · intro agrees
    have lasting := Confirmation.lasting_namesPassenger
    have opening : Session.OpensWith (d.Offers ctx fleet) ctx.now Confirmation.NamesPassenger :=
      Session.opensWith_namesPassenger
    have agrees := Session.Moves.agrees before (synced_sound sound) (synced_agrees agrees lasting) lasting
      opening
    have there : t.state.Agrees Confirmation.NamesPassenger := by
      rcases given.reached with rfl | ⟨p, fits, opens, rfl⟩
      · exact agrees
      · exact agrees.asking soundHere opens fun r => opening _ _ _ r fits opens
    obtain ⟨r, queued', named⟩ := there c given.held
    obtain rfl : request = r := Option.some.inj (queued.symm.trans queued')
    exact named.symm

/-- In whatever order requests are submitted, also again, and given up and cycles are run, whatever the fleets
and the routers answer: every confirmation is for a queued request. It names the passenger of the request as
it is queued, throughout the run, just if whatever is submitted again has the passenger of the confirmation
that is held for it at that moment; and if routes end where they are to lead, its drive ends on the link on
which the request begins, throughout the run, just if whatever is submitted again begins where the drive of
that confirmation ends. A ride that is reported, the opening of its confirmation and the end of it are for one
passenger, and as long as confirmations name the passengers of queued requests the fleet has taken the
request of this passenger, whose tasks are for the same. -/
theorem described_iff (settings : Settings) (resolution : Resolution) (calls : List (Call φ)) :
    let after (earlier : List (Call φ)) := (fresh settings resolution).serve earlier
    (∀ earlier, earlier <+: calls → ∀ c ∈ (after earlier).1.state.registry.toList,
      (after earlier).1.state.queue.contains c.request = true) ∧
    ((∀ earlier, earlier <+: calls → (after earlier).1.state.Agrees Confirmation.NamesPassenger) ↔
      ∀ earlier request, earlier ++ [.submit request] <+: calls →
        ∀ c, (after earlier).1.state.registry.Holds c → c.request = request.id →
          c.NamesPassenger request) ∧
    ((∀ ctx fleet, .cycle ctx fleet ∈ calls → ctx.router.Arrives) →
      ((∀ earlier, earlier <+: calls → (after earlier).1.state.Agrees Confirmation.ReachesPickup) ↔
        ∀ earlier request, earlier ++ [.submit request] <+: calls →
          ∀ c, (after earlier).1.state.registry.Holds c → c.request = request.id →
            c.ReachesPickup request)) ∧
    (∀ earlier ctx fleet, earlier ++ [.cycle ctx fleet] <+: calls →
      let d := (after earlier).1
      let result := d.runCycle ctx fleet
      ∀ report, result.report = .ok report → ∀ ride ∈ report.committed,
        ∃ opening ∈ (after earlier).2 ++ result.events, ∃ closing ∈ result.events,
          opening.stage = .created ∧ closing.Closes opening ∧
          ride = ⟨opening.request, opening.passenger, opening.vehicle⟩ ∧
          ∃ s s' request pickup, d.Amid ctx fleet s ∧ d.Amid ctx fleet s' ∧
            Fleet.commit s.fleet ride.vehicle request pickup ctx.now = .ok s'.fleet ∧
            request.id = ride.request ∧
            (d.state.Agrees Confirmation.NamesPassenger → request.passenger = ride.passenger)) ∧
    ∀ (f f' : ScheduledFleet) v request pickup now, f.commit v request pickup now = .ok f' →
      ∃ x tasks, f.vehicle? v = some x ∧ f'.vehicle? v = some { x with tasks := x.tasks ++ tasks } ∧
        tasks.map Task.kind = TaskKind.all ∧ ∀ t ∈ tasks, t.passenger = request.passenger := by
  intro after
  have start : (fresh settings resolution).state.Sound := .empty _ _
  refine ⟨?_, ?_, ?_, ?_, ?_⟩
  · intro earlier _ c member
    have sound : (after earlier).1.state.Sound := serve_sound start
    exact (serve_queued settings resolution earlier).mem_queue (sound.registry.mem_toList.mp member)
  · exact agrees_iff start (.empty _ _) Confirmation.lasting_namesPassenger
      fun _ _ _ _ => Session.opensWith_namesPassenger
  · intro arrives
    exact agrees_iff start (.empty _ _) Confirmation.lasting_reachesPickup
      fun ctx fleet member d => d.opensWith_reachesPickup (arrives ctx fleet member)
  · intro earlier ctx fleet _ d result report ok ride member
    refine ride_taken (serve_sound start) (serve_tells start .empty) ?_
    rwa [report_eq_ok ok] at member
  · intro f f' v request pickup now committed
    obtain ⟨x, occupied, start, found, _, _, _, rfl⟩ := ScheduledFleet.commit_eq_ok committed
    refine ⟨x, f.ride request pickup occupied start, found, ?_, rfl, ?_⟩
    · rw [ScheduledFleet.vehicle?_insert, if_pos rfl]
    · intro t member
      exact ScheduledFleet.passenger_of_mem_ride member

/-- A request comes, and a cycle asks the driver of the only vehicle for it. -/
def askedOnce : List (Call ScheduledFleet) :=
  [.submit (.immediate ⟨1⟩ ⟨9⟩ (.onDiagonal 2) (.onDiagonal 3) 0 none),
    .cycle ⟨0, .fewWays⟩ { ScheduledFleet.empty .fewWays ⟨120⟩ ⟨60⟩ with
      vehicles := Std.ExtTreeMap.empty.insert ⟨7⟩ ⟨⟨7⟩, 0, .never, .onDiagonal 1, []⟩ }]

theorem described_iff_askedOnce :
    let d := ((fresh { confirmationDelaySecs := 10 } 9).serve askedOnce).1
    d.state.registry.toList.map Confirmation.request = [⟨1⟩] ∧
      d.state.Agrees Confirmation.NamesPassenger ∧ d.state.Agrees Confirmation.ReachesPickup := by
  intro d
  have arrives : ∀ ctx fleet, .cycle ctx fleet ∈ askedOnce → ctx.router.Arrives := by
    intro ctx fleet member
    rcases List.mem_cons.mp member with first | second
    · cases first
    · cases List.mem_singleton.mp second
      exact (Router.leads_ofTable _).arrives
  -- nothing is submitted after a confirmation has been opened
  have once {agree : Confirmation → Request → Prop} (earlier : List (Call ScheduledFleet)) (request : Request)
      (part : earlier ++ [.submit request] <+: askedOnce) (c : Confirmation)
      (held : ((fresh { confirmationDelaySecs := 10 } 9).serve earlier).1.state.registry.Holds c) :
      agree c request := by
    obtain ⟨rest, all⟩ := part
    cases earlier with
    | nil => exact (Registry.not_holds_empty held).elim
    | cons first others =>
      cases others with
      | nil => simp [askedOnce] at all
      | cons second others => simp [askedOnce] at all
  obtain ⟨_, passengers, pickups, _⟩ := described_iff { confirmationDelaySecs := 10 } 9 askedOnce
  refine ⟨by decide +kernel, ?_, ?_⟩
  · exact passengers.mpr (fun earlier request part c held _ => once earlier request part c held) _
      List.prefix_rfl
  · exact (pickups arrives).mpr (fun earlier request part c held _ => once earlier request part c held) _
      List.prefix_rfl

end Dispatcher

/-- A request that is submitted again, for another passenger and from elsewhere, while its driver is asked. -/
def submittedAgain : List Errand :=
  [.addVehicle ⟨7⟩ (.onDiagonal 1) 0 .never,
    .submit (.immediate ⟨1⟩ ⟨9⟩ (.onDiagonal 2) (.onDiagonal 3) 0 none),
    .cycle ⟨0, .fewWays⟩,
    .submit (.immediate ⟨1⟩ ⟨10⟩ (.onDiagonal 4) (.onDiagonal 5) 0 none)]

/-- There is a service that holds a confirmation with another passenger than its request has, and with a drive
that ends elsewhere; it reports the ride for the one passenger, and its fleet gives it to the other. -/
theorem Service.rides_of_another_passenger :
    let s := (fresh { confirmationDelaySecs := 10 } 9 .fewWays ⟨120⟩ ⟨60⟩).run submittedAgain
    let later := s.act (.cycle ⟨⟨10000⟩, .fewWays⟩)
    Router.fewWays.Arrives ∧
    s.dispatcher.state.registry.toList.map (fun c => (c.request, c.passenger, c.pickup.links)) =
      [(⟨1⟩, ⟨9⟩, [⟨1⟩, ⟨2⟩])] ∧
    (s.dispatcher.state.queue.get? ⟨1⟩).map (fun r => (r.passenger, r.origin.link)) = some (⟨10⟩, ⟨4⟩) ∧
    later.committed = [⟨⟨1⟩, ⟨9⟩, ⟨7⟩⟩] ∧
    (later.fleet.vehicle? ⟨7⟩).map (fun x => x.tasks.map Task.passenger) =
      some [⟨10⟩, ⟨10⟩, ⟨10⟩, ⟨10⟩] := by
  refine ⟨(Router.leads_ofTable _).arrives, ?_, ?_, ?_, ?_⟩
  · decide +kernel
  · decide +kernel
  · decide +kernel
  · decide +kernel

end RideDispatch

import RideDispatch.Proofs.Agenda
import RideDispatch.Proofs.Outcome
import RideDispatch.Scenario

/-!
# Scenarios that can be built

A scenario can be built if its settings are valid and everybody in it has a place: the links on which the vehicles
stand and between which the passengers travel belong to the network, the far end of every link has a coordinate
(`Network.Finite`), and no vehicle comes twice. Its simulation then begins with every vehicle at its place and
every request still to be submitted (`Scenario.build_eq_opening`). If the passengers come in the order of their
departures, the submissions stand in the order of the passengers from the beginning (`Scenario.exists_build`).
-/

namespace RideDispatch

/-- The far end of every link has a coordinate: it lies on the lattice, and its degrees are finite numbers. -/
def Network.Finite (n : Network) : Prop :=
  ∀ (id : LinkId) (l : Link), n.links[id]? = some l → ∃ c, n.coordinate? l.head = .ok (some c)

lemma Dispatcher.exists_ofSettings {settings : Settings} (valid : settings.validate = .ok ()) :
    ∃ resolution, settings.resolution = .ok resolution ∧
      ofSettings settings = .ok ⟨settings, resolution, .empty settings.confirmationDelay resolution⟩ := by
  have settled : ∃ resolution, settings.resolution = .ok resolution := by
    -- the resolution is the last thing that is looked at
    unfold Settings.validate at valid
    repeat' split at valid
    any_goals cases valid
    obtain ⟨resolution, settled, _⟩ := map_eq_ok valid
    exact ⟨resolution, settled⟩
  obtain ⟨resolution, settled⟩ := settled
  refine ⟨resolution, settled, ?_⟩
  unfold ofSettings
  rw [valid, settled]
  rfl

lemma Clock.insert_last {e : ScheduledEvent} {events : List ScheduledEvent} (last : ∀ x ∈ events, ¬ e.Precedes x) :
    insert e events = events ++ [e] := by
  induction events with
  | nil => rfl
  | cons first rest ih =>
    obtain ⟨behind, last⟩ := List.forall_mem_cons.mp last
    unfold insert
    rw [if_neg behind, ih last]
    rfl

namespace Scenario

variable {network : Network} {vehicles : List VehicleSpec} {passengers : List PassengerSpec}
variable {params : ScenarioParams} {link : LinkId}

/-- The place of whoever is on a link of a network in which all coordinates are finite. -/
def standing (network : Network) (link : LinkId) : Place :=
  ⟨link, (network.links[link]?.bind fun l =>
    Network.coordinateAt? network.params ⟨l.head / network.rows, l.head % network.rows⟩).getD ⟨0, 0⟩⟩

/-- The fleet with one more vehicle. -/
def enlist (network : Network) (fleet : ScheduledFleet) (spec : VehicleSpec) : ScheduledFleet :=
  { fleet with
    vehicles := fleet.vehicles.insert spec.id
      ⟨spec.id, spec.serviceBegin, spec.serviceEnd, standing network spec.link, []⟩ }

/-- The demand with the request of one more passenger. -/
def book (network : Network) (demand : Demand) (entry : PassengerSpec × Nat) : Demand where
  upcoming := demand.upcoming.insert ⟨entry.2.toUInt64⟩
    ⟨entry.1.id, standing network entry.1.origin, standing network entry.1.target⟩
  clock := demand.clock.schedule entry.1.departure .requestSubmitted (some (.request ⟨entry.2.toUInt64⟩))

/-- The simulation of a scenario at its beginning, where nothing stands in its way. -/
def opening (network : Network) (vehicles : List VehicleSpec) (passengers : List PassengerSpec)
    (params : ScenarioParams) (resolution : Resolution) : Simulation :=
  let router := (WayTable.ofNetwork network).router
  let demand := passengers.zipIdx.foldl (book network) {}
  { clock := demand.clock
    log := {}
    router := router
    fleet := vehicles.foldl (enlist network)
      (.empty router (Time.ofSecs params.pickupDurationSecs) (Time.ofSecs params.dropoffDurationSecs))
    dispatcher := ⟨params.settings, resolution, .empty params.settings.confirmationDelay resolution⟩
    upcoming := demand.upcoming
    maxSearch := params.maxSearchSecs.map Time.ofSecs
    endTime := params.endTime }

lemma placeOn_eq_standing (finite : network.Finite) (known : link ∈ network.linkIds) :
    placeOn network link = .ok (standing network link) := by
  obtain ⟨l, found⟩ : ∃ l, network.links[link]? = some l := by
    rw [← Option.isSome_iff_exists, ← Table.contains_eq_isSome]
    exact Std.ExtTreeMap.mem_keys.mp known
  obtain ⟨c, here⟩ := finite link l found
  have own : Network.coordinateAt? network.params ⟨l.head / network.rows, l.head % network.rows⟩ = some c := by
    unfold Network.coordinate? at here
    split at here
    · exact Except.ok.inj here
    · cases here
  unfold placeOn Network.place? standing
  simp only [found, here, Option.bind_some, own]
  rfl

lemma addVehicle_eq_enlist {fleet : ScheduledFleet} {spec : VehicleSpec} (finite : network.Finite)
    (known : spec.link ∈ network.linkIds) (new : ¬ fleet.vehicles.contains spec.id = true) :
    addVehicle network fleet spec = .ok (enlist network fleet spec) := by
  unfold addVehicle ScheduledFleet.addVehicle
  simp only [placeOn_eq_standing finite known, bind, Except.bind]
  rw [if_neg new]
  rfl

lemma addPassenger_eq_book {demand : Demand} {entry : PassengerSpec × Nat} (finite : network.Finite)
    (origin : entry.1.origin ∈ network.linkIds) (target : entry.1.target ∈ network.linkIds) :
    addPassenger network demand entry = .ok (book network demand entry) := by
  unfold addPassenger
  simp only [placeOn_eq_standing finite origin, placeOn_eq_standing finite target]
  rfl

/-- Vehicles of different identities can all join a fleet. -/
lemma foldlM_addVehicle (finite : network.Finite) (known : ∀ v ∈ vehicles, v.link ∈ network.linkIds)
    (nodup : (vehicles.map VehicleSpec.id).Nodup) (router : Router) (pickup dropoff : Time) :
    vehicles.foldlM (addVehicle network) (.empty router pickup dropoff) =
      .ok (vehicles.foldl (enlist network) (.empty router pickup dropoff)) := by
  -- who belongs to the fleet is one of those who have joined
  refine (foldlM_eq_foldl (P := fun done (fleet : ScheduledFleet) =>
    ∀ id, fleet.vehicles.contains id = true → id ∈ done.map VehicleSpec.id) ?_ ?_).1
  · rintro done spec rest fleet rfl joined
    have new : ¬ fleet.vehicles.contains spec.id = true := by
      intro known
      rw [List.map_append, List.nodup_append] at nodup
      exact nodup.2.2 _ (joined _ known) _ List.mem_cons_self rfl
    refine ⟨addVehicle_eq_enlist finite (known spec (by simp)) new, ?_⟩
    intro id known
    unfold enlist at known
    rw [Table.contains_insert, Bool.or_eq_true, decide_eq_true_iff] at known
    rw [List.map_append, List.mem_append]
    rcases known with rfl | known
    · exact .inr List.mem_cons_self
    · exact .inl (joined id known)
  · intro id known
    simp [ScheduledFleet.empty] at known

/-- Passengers who travel between links of the network can all be booked. -/
lemma foldlM_addPassenger (finite : network.Finite)
    (travelling : ∀ p ∈ passengers, p.origin ∈ network.linkIds ∧ p.target ∈ network.linkIds) :
    passengers.zipIdx.foldlM (addPassenger network) ({} : Demand) =
      .ok (passengers.zipIdx.foldl (book network) {}) := by
  refine (foldlM_eq_foldl (P := fun _ _ => True) ?_ trivial).1
  intro done entry rest demand whole _
  have listed : entry ∈ passengers.zipIdx := whole ▸ List.mem_append_right _ List.mem_cons_self
  obtain ⟨origin, target⟩ := travelling entry.1 (List.fst_mem_of_mem_zipIdx listed)
  exact ⟨addPassenger_eq_book finite origin target, trivial⟩

/-- A scenario with valid settings, in which everybody has a place and no vehicle comes twice, can be built, and
everything begins as it should. -/
theorem build_eq_opening (valid : params.settings.validate = .ok ()) (finite : network.Finite)
    (known : ∀ v ∈ vehicles, v.link ∈ network.linkIds) (nodup : (vehicles.map VehicleSpec.id).Nodup)
    (travelling : ∀ p ∈ passengers, p.origin ∈ network.linkIds ∧ p.target ∈ network.linkIds) :
    ∃ resolution, params.settings.resolution = .ok resolution ∧
      build network vehicles passengers params = .ok (opening network vehicles passengers params resolution) := by
  obtain ⟨resolution, settled, made⟩ := Dispatcher.exists_ofSettings valid
  refine ⟨resolution, settled, ?_⟩
  unfold build
  simp only [made, foldlM_addVehicle finite known nodup, foldlM_addPassenger finite travelling]
  rfl

/-- The event that submits the request of a passenger with a number. -/
def submission (entry : PassengerSpec × Nat) : ScheduledEvent :=
  ⟨entry.1.departure, .requestSubmitted, some (.request ⟨entry.2.toUInt64⟩), entry.2⟩

/-- The submissions of the requests of some passengers are to come, in the order of the passengers. -/
structure Booked (done : List (PassengerSpec × Nat)) (demand : Demand) : Prop where
  now_eq : demand.clock.now = 0
  issued_eq : demand.clock.issued = done.length
  pending_eq : demand.clock.pending = done.map submission

/-- One more passenger, who departs last. -/
lemma Booked.book {done : List (PassengerSpec × Nat)} {demand : Demand} {entry : PassengerSpec × Nat}
    (h : Booked done demand) (number : entry.2 = done.length)
    (last : ∀ earlier ∈ done, earlier.1.departure ≤ entry.1.departure ∧ earlier.2 < entry.2) :
    Booked (done ++ [entry]) (Scenario.book network demand entry) := by
  have own : max entry.1.departure 0 = entry.1.departure :=
    Time.ext ((Time.toNat_max _ _).trans (Nat.max_eq_left (Nat.zero_le _)))
  refine ⟨h.now_eq, ?_, ?_⟩
  · show demand.clock.issued + 1 = (done ++ [entry]).length
    rw [h.issued_eq, List.length_append]
    rfl
  · show Clock.insert ⟨max entry.1.departure demand.clock.now, _, _, demand.clock.issued⟩ demand.clock.pending = _
    rw [h.now_eq, own, h.issued_eq, ← number, h.pending_eq, List.map_append]
    apply Clock.insert_last
    intro x member
    obtain ⟨earlier, before, rfl⟩ := List.mem_map.mp member
    obtain ⟨departure, ticket⟩ := last earlier before
    rintro (sooner | ⟨_, rank | ⟨_, sooner⟩⟩)
    · exact Time.not_lt.mpr departure sooner
    · exact Nat.lt_irrefl _ rank
    · exact Nat.lt_asymm ticket sooner

/-- Passengers who come in the order of their departures are booked in that order. -/
lemma booked_zipIdx (sorted : passengers.Pairwise fun p q => p.departure ≤ q.departure) :
    Booked passengers.zipIdx (passengers.zipIdx.foldl (Scenario.book network) {}) := by
  have inOrder : passengers.zipIdx.Pairwise fun a b => a.1.departure ≤ b.1.departure ∧ a.2 < b.2 := by
    refine List.Pairwise.and ?_ ?_
    · rw [← List.zipIdx_map_fst 0 passengers] at sorted
      exact (List.pairwise_map (f := Prod.fst)).mp sorted
    · have numbers : (passengers.zipIdx.map Prod.snd).Pairwise (· < ·) := by
        rw [List.zipIdx_map_snd]
        exact List.pairwise_lt_range'
      exact List.pairwise_map.mp numbers
  -- a fold that cannot fail is one each of whose steps goes well
  refine (foldlM_eq_foldl (ε := Empty) (f := fun demand entry => .ok (Scenario.book network demand entry))
    (P := Booked) ?_ ⟨rfl, rfl, rfl⟩).2
  intro done entry rest demand whole booked
  have listed : passengers.zipIdx[done.length]? = some entry := by
    rw [← whole, List.getElem?_append_right (Nat.le_refl _), Nat.sub_self]
    rfl
  have number : entry.2 = done.length := by
    rw [List.getElem?_zipIdx, Option.map_eq_some_iff] at listed
    obtain ⟨spec, _, rfl⟩ := listed
    exact Nat.zero_add _
  rw [← whole] at inOrder
  refine ⟨rfl, booked.book number ?_⟩
  exact fun earlier before => (List.pairwise_append.mp inOrder).2.2 earlier before entry List.mem_cons_self

/-- If the passengers come in the order of their departures, their requests are to be submitted in that order. -/
theorem exists_build (valid : params.settings.validate = .ok ()) (finite : network.Finite)
    (known : ∀ v ∈ vehicles, v.link ∈ network.linkIds) (nodup : (vehicles.map VehicleSpec.id).Nodup)
    (travelling : ∀ p ∈ passengers, p.origin ∈ network.linkIds ∧ p.target ∈ network.linkIds)
    (sorted : passengers.Pairwise fun p q => p.departure ≤ q.departure) :
    ∃ sim, build network vehicles passengers params = .ok sim ∧
      sim.clock.pending = passengers.zipIdx.map submission := by
  obtain ⟨resolution, _, built⟩ := build_eq_opening valid finite known nodup travelling
  exact ⟨_, built, (booked_zipIdx sorted).pending_eq⟩

end Scenario

/-! ## A small town

Four nodes at the corners of a square, one vehicle and two passengers who search for five seconds at most. The first
of them asks at the start, for a ride on the link where the vehicle stands, which takes no time to drive. The second
one asks ten seconds later, when the vehicle is busy.
-/

namespace SmallTown

def network : Network := .grid 2 2 {}

def vehicles : List VehicleSpec := [⟨⟨1⟩, ⟨1⟩, 0, .never⟩]

def passengers : List PassengerSpec := [⟨⟨1⟩, ⟨1⟩, ⟨1⟩, 0⟩, ⟨⟨2⟩, ⟨7⟩, ⟨4⟩, ⟨10000⟩⟩]

def params : ScenarioParams := { maxSearchSecs := some 5 }

def opening : Simulation := Scenario.opening network vehicles passengers params ⟨9, by decide⟩

/-- Whether the coordinates of the town are finite is a matter of a cosine, of which nothing is known here. If they
are, the town can be built. -/
lemma build_eq (finite : network.Finite) : Scenario.build network vehicles passengers params = .ok opening := by
  have valid : params.settings.validate = .ok () := rfl
  obtain ⟨resolution, settled, built⟩ := Scenario.build_eq_opening valid finite
    (by decide +kernel : ∀ v ∈ vehicles, v.link ∈ network.linkIds) (by decide)
    (by decide +kernel : ∀ p ∈ passengers, p.origin ∈ network.linkIds ∧ p.target ∈ network.linkIds)
  cases settled
  exact built

end SmallTown

end RideDispatch

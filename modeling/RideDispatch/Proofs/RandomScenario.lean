import RideDispatch.Proofs.Buildable
import RideDispatch.Proofs.Quiescence
import RideDispatch.Scenario.Random

/-!
# Random scenarios

Whatever numbers a stream gives, a passenger who is drawn travels between two different links and departs within the
window (`randomPassenger_travels`): the second link is found by a shift that leads all the way round to the first
one only if it is zero or as large as the number of links, and it is neither. The passengers are then put in the
order of their departures, so a random scenario can be built, and the requests are submitted in the order of their
numbers (`random_scenario`).
-/

namespace RideDispatch.Scenario

open RideDispatch.Random (Stream)

/-! ## What is drawn -/

section Draw

variable {α β : Type} {one : Nat → Stream → α × Stream}

/-- What does not depend on the stream is known of everything that is drawn. -/
lemma map_drawAll {f : α → β} {g : Nat → β} (own : ∀ number s, f (one number s).1 = g number)
    (numbers : List Nat) (s : Stream) : (drawAll one numbers s).map f = numbers.map g := by
  induction numbers generalizing s with
  | nil => rfl
  | cons number rest ih =>
    show f (one number s).1 :: (drawAll one rest (one number s).2).map f = _
    rw [own, ih]
    rfl

/-- What holds whatever the stream holds of everything that is drawn. -/
lemma forall_mem_drawAll {P : α → Prop} (holds : ∀ number s, P (one number s).1) (numbers : List Nat) (s : Stream) :
    ∀ a ∈ drawAll one numbers s, P a := by
  induction numbers generalizing s with
  | nil => exact List.forall_mem_nil _
  | cons number rest ih => exact List.forall_mem_cons.mpr ⟨holds number s, ih _⟩

variable {links : Array LinkId} {i j : Nat}

lemma drawnLink_mem (below : i < links.size) : drawnLink links i ∈ links.toList := by
  unfold drawnLink
  rw [Array.getD_eq_getD_getElem?, Array.getElem?_eq_getElem below]
  exact Array.getElem_mem_toList below

lemma drawnLink_ne (nodup : links.toList.Nodup) (below : i < links.size) (below' : j < links.size) (ne : i ≠ j) :
    drawnLink links i ≠ drawnLink links j := by
  unfold drawnLink
  rw [Array.getD_eq_getD_getElem?, Array.getD_eq_getD_getElem?, Array.getElem?_eq_getElem below,
    Array.getElem?_eq_getElem below']
  intro same
  exact ne ((List.Nodup.getElem_inj_iff nodup).mp same)

/-- A shift that is less than the size of a ring and not zero leads elsewhere. -/
lemma shifted_ne {size : Nat} (below : i < size) (shift : j < size - 1) : (i + (j + 1)) % size ≠ i := by
  rcases Nat.lt_or_ge (i + (j + 1)) size with inside | round
  · rw [Nat.mod_eq_of_lt inside]
    omega
  · rw [Nat.mod_eq_sub_mod round, Nat.mod_eq_of_lt (by omega)]
    omega

end Draw

/-! ## Passengers and vehicles -/

/-- A passenger travels between two different links and departs within a window. -/
structure Travels (links : List LinkId) (window : Time) (p : PassengerSpec) : Prop where
  origin : p.origin ∈ links
  target : p.target ∈ links
  ne : p.origin ≠ p.target
  departure : p.departure.toNat < max window.toNat 1

lemma randomPassenger_travels {links : Array LinkId} (many : 2 ≤ links.size) (nodup : links.toList.Nodup)
    (window : Time) (number : Nat) (s : Stream) :
    Travels links.toList window (randomPassenger links window number s).1 := by
  unfold randomPassenger
  -- of what the stream gives, no more is known than that it is below the bounds
  have origin := Stream.below_lt (Nat.zero_lt_of_lt many) s
  generalize s.below links.size = first at origin ⊢
  obtain ⟨i, s⟩ := first
  have shift := Stream.below_lt (Nat.sub_pos_of_lt many) s
  simp only at origin shift ⊢
  generalize s.below (links.size - 1) = second at shift ⊢
  obtain ⟨j, s⟩ := second
  have width : (max window ⟨1⟩).toNat = max window.toNat 1 := Time.toNat_max window ⟨1⟩
  rw [width]
  have departure := Stream.below_lt (show 0 < max window.toNat 1 by omega) s
  simp only at shift departure ⊢
  generalize s.below (max window.toNat 1) = third at departure ⊢
  have target : (i + (j + 1)) % links.size < links.size := Nat.mod_lt _ (Nat.zero_lt_of_lt many)
  refine ⟨drawnLink_mem origin, drawnLink_mem target, ?_, ?_⟩
  · exact drawnLink_ne nodup origin target (shifted_ne origin shift).symm
  · show (Time.ofNat third.1).toNat < _
    rw [Time.toNat_ofNat]
    exact Nat.lt_of_le_of_lt (Nat.min_le_left _ _) departure

lemma id_randomPassenger {links : Array LinkId} {window : Time} (number : Nat) (s : Stream) :
    (randomPassenger links window number s).1.id = ⟨number.toUInt64⟩ := by
  unfold randomPassenger
  generalize s.below links.size = first
  simp only

lemma id_randomVehicle {links : Array LinkId} {service : Time} (number : Nat) (s : Stream) :
    (randomVehicle links service number s).1.id = ⟨number.toUInt64⟩ := by
  unfold randomVehicle
  generalize s.below links.size = drawn
  rfl

lemma standing_randomVehicle {links : Array LinkId} (some_ : 0 < links.size) {service : Time} (number : Nat)
    (s : Stream) : (randomVehicle links service number s).1.link ∈ links.toList := by
  have below := Stream.below_lt some_ s
  unfold randomVehicle
  generalize s.below links.size = drawn at below ⊢
  exact drawnLink_mem below

lemma toNat_number {count : UInt64} {number : Nat} (below : number < count.toNat) :
    number.toUInt64.toNat = number := UInt64.toNat_ofNat_of_lt (below.trans count.toNat_lt)

/-- Numbers below a word give different identities. -/
lemma nodup_numbers {e : Entity} (count : UInt64) :
    ((List.range count.toNat).map fun number => (⟨number.toUInt64⟩ : Id e)).Nodup := by
  refine (List.nodup_map_iff_inj_on List.nodup_range).mpr ?_
  intro i below j below' same
  have words : i.toUInt64.toNat = j.toUInt64.toNat := congrArg (fun id : Id e => id.val.toNat) same
  rwa [toNat_number (List.mem_range.mp below), toNat_number (List.mem_range.mp below')] at words

variable {network : Network} {windowSecs serviceSecs seed : UInt64}

lemma standing_randomFleet (count : Nat) :
    ∀ v ∈ randomFleet network count serviceSecs seed, v.link ∈ network.linkIds := by
  unfold randomFleet
  simp only
  split
  · exact List.forall_mem_nil _
  · rename_i some_
    have pos : 0 < network.linkIds.toArray.size := by
      rw [Array.isEmpty_iff_size_eq_zero] at some_
      omega
    exact forall_mem_drawAll (standing_randomVehicle pos) _ _

lemma nodup_randomFleet (count : UInt64) :
    ((randomFleet network count.toNat serviceSecs seed).map VehicleSpec.id).Nodup := by
  unfold randomFleet
  simp only
  split
  · exact .nil
  · rw [map_drawAll id_randomVehicle]
    exact nodup_numbers count

/-! ## The order of departures -/

/-- A passenger departs before another one, or at the same time with a smaller identity. -/
def DepartsSooner (a b : PassengerSpec) : Prop := a.departure < b.departure ∨ a.departure = b.departure ∧ a.id < b.id

lemma departsBefore_iff {a b : PassengerSpec} : departsBefore a b = true ↔ a.departure.toNat < b.departure.toNat ∨
    a.departure.toNat = b.departure.toNat ∧ a.id.val.toNat ≤ b.id.val.toNat := by
  unfold departsBefore
  have same : a.departure = b.departure ↔ a.departure.toNat = b.departure.toNat := ⟨congrArg Time.toNat, Time.ext⟩
  rw [Bool.or_eq_true, Bool.and_eq_true, decide_eq_true_iff, decide_eq_true_iff, decide_eq_true_iff, Time.lt_iff, same]
  exact Iff.rfl

lemma departsBefore_trans (a b c : PassengerSpec) (first : departsBefore a b = true)
    (second : departsBefore b c = true) : departsBefore a c = true := by
  rw [departsBefore_iff] at *
  omega

lemma departsBefore_total (a b : PassengerSpec) : (departsBefore a b || departsBefore b a) = true := by
  rw [Bool.or_eq_true, departsBefore_iff, departsBefore_iff]
  omega

lemma DepartsSooner.le {a b : PassengerSpec} (h : DepartsSooner a b) : a.departure ≤ b.departure := by
  rcases h with sooner | ⟨same, _⟩
  · exact Time.le_iff.mpr (Nat.le_of_lt (Time.lt_iff.mp sooner))
  · exact Time.le_iff.mpr (Nat.le_of_eq (congrArg Time.toNat same))

/-- The passengers in the order in which they are drawn. -/
def drawnPassengers (network : Network) (count : Nat) (windowSecs seed : UInt64) : List PassengerSpec :=
  drawAll (randomPassenger network.linkIds.toArray (Time.ofSecs windowSecs)) (List.range count)
    (Stream.ofSeed (seed + 0xdead5eed))

lemma randomDemand_of_few (few : network.linkIds.length < 2) (count : Nat) :
    randomDemand network count windowSecs seed = [] := by
  unfold randomDemand
  simp only [List.size_toArray]
  rw [if_pos few]

lemma randomDemand_of_many (many : 2 ≤ network.linkIds.length) (count : Nat) :
    randomDemand network count windowSecs seed =
      (drawnPassengers network count windowSecs seed).mergeSort departsBefore := by
  unfold randomDemand
  simp only [List.size_toArray]
  rw [if_neg (Nat.not_lt.mpr many)]
  rfl

lemma ids_randomDemand (many : 2 ≤ network.linkIds.length) (count : Nat) :
    ((randomDemand network count windowSecs seed).map PassengerSpec.id).Perm
      ((List.range count).map fun number => ⟨number.toUInt64⟩) := by
  have drawn : (drawnPassengers network count windowSecs seed).map PassengerSpec.id = _ :=
    map_drawAll id_randomPassenger _ _
  rw [randomDemand_of_many many, ← drawn]
  exact (List.mergeSort_perm _ _).map _

lemma numbers_randomDemand (many : 2 ≤ network.linkIds.length) (count : UInt64) :
    ((randomDemand network count.toNat windowSecs seed).map fun p => p.id.val.toNat).Perm
      (List.range count.toNat) := by
  have ids : ((randomDemand network count.toNat windowSecs seed).map PassengerSpec.id).Perm _ :=
    ids_randomDemand many count.toNat
  replace ids := ids.map fun id => id.val.toNat
  rw [List.map_map, List.map_map] at ids
  refine ids.trans (.of_eq ?_)
  refine (List.map_congr_left fun number below => ?_).trans (List.map_id _)
  exact toNat_number (List.mem_range.mp below)

lemma length_randomDemand (many : 2 ≤ network.linkIds.length) (count : UInt64) :
    (randomDemand network count.toNat windowSecs seed).length = count.toNat := by
  have numbers : ((randomDemand network count.toNat windowSecs seed).map fun p => p.id.val.toNat).Perm _ :=
    numbers_randomDemand many count
  simpa using numbers.length_eq

lemma length_randomDemand_le (count : UInt64) :
    (randomDemand network count.toNat windowSecs seed).length ≤ UInt64.size := by
  rcases Nat.lt_or_ge network.linkIds.length 2 with few | many
  · rw [randomDemand_of_few few]
    exact Nat.zero_le _
  · rw [length_randomDemand many]
    exact Nat.le_of_lt count.toNat_lt

lemma travels_randomDemand (count : Nat) :
    ∀ p ∈ randomDemand network count windowSecs seed, Travels network.linkIds (Time.ofSecs windowSecs) p := by
  rcases Nat.lt_or_ge network.linkIds.length 2 with few | many
  · rw [randomDemand_of_few few]
    exact List.forall_mem_nil _
  · rw [randomDemand_of_many many]
    intro p member
    have nodup : network.linkIds.toArray.toList.Nodup := Std.ExtTreeMap.nodup_keys
    exact forall_mem_drawAll (randomPassenger_travels many nodup _) _ _ p (List.mem_mergeSort.mp member)

/-- No two passengers have the same identity, so the order of departures is strict. -/
lemma sorted_randomDemand (count : UInt64) :
    (randomDemand network count.toNat windowSecs seed).Pairwise DepartsSooner := by
  rcases Nat.lt_or_ge network.linkIds.length 2 with few | many
  · rw [randomDemand_of_few few]
    exact .nil
  · have nodup : ((randomDemand network count.toNat windowSecs seed).map PassengerSpec.id).Nodup :=
      (ids_randomDemand many count.toNat).nodup_iff.mpr (nodup_numbers count)
    have sorted : (randomDemand network count.toNat windowSecs seed).Pairwise fun a b => departsBefore a b = true := by
      rw [randomDemand_of_many many]
      exact List.pairwise_mergeSort departsBefore_trans departsBefore_total _
    refine (sorted.and (List.pairwise_map.mp nodup)).imp ?_
    rintro a b ⟨before, ne⟩
    rcases departsBefore_iff.mp before with sooner | ⟨same, smaller⟩
    · exact .inl (Time.lt_iff.mpr sooner)
    · refine .inr ⟨Time.ext same, UInt64.lt_iff_toNat_lt.mpr (Nat.lt_of_le_of_ne smaller ?_)⟩
      exact fun equal => ne (congrArg Id.mk (UInt64.toNat_inj.mp equal))

/-! ## Random scenarios -/

/-- In a list of submissions, the requests of smaller numbers are submitted first. -/
lemma submissions_inOrder {passengers : List PassengerSpec} (few : passengers.length ≤ UInt64.size)
    (sorted : passengers.Pairwise fun p q => p.departure ≤ q.departure) {e e' : ScheduledEvent}
    (member : e ∈ passengers.zipIdx.map submission) (member' : e' ∈ passengers.zipIdx.map submission)
    {id id' : RequestId} (own : e.request? = some id) (own' : e'.request? = some id') (le : id ≤ id') :
    e.time ≤ e'.time := by
  obtain ⟨⟨p, i⟩, listed, rfl⟩ := List.mem_map.mp member
  obtain ⟨⟨q, j⟩, listed', rfl⟩ := List.mem_map.mp member'
  cases own
  cases own'
  rw [List.mk_mem_zipIdx_iff_getElem?] at listed listed'
  obtain ⟨below, rfl⟩ := List.getElem?_eq_some_iff.mp listed
  obtain ⟨below', rfl⟩ := List.getElem?_eq_some_iff.mp listed'
  have numbers : i.toUInt64.toNat ≤ j.toUInt64.toNat := UInt64.le_iff_toNat_le.mp le
  rw [show i.toUInt64.toNat = i from UInt64.toNat_ofNat_of_lt (by omega),
    show j.toUInt64.toNat = j from UInt64.toNat_ofNat_of_lt (by omega)] at numbers
  rcases Nat.lt_or_eq_of_le numbers with before | rfl
  · exact List.pairwise_iff_getElem.mp sorted i j below below' before
  · exact Time.le_iff.mpr (Nat.le_refl _)

/-- Whatever the network, the numbers and the seeds: with two links at least there are as many passengers as are asked
for, who are numbered from zero. Each of them travels between two different links of the network and departs within the
window, and they come in the order of their departures. If the coordinates are finite and the settings valid, they can
be put on the network together with any random fleet. Each passenger then has the request of their place in that order,
and of two requests the one of the smaller number is submitted no later. -/
theorem random_scenario (network : Network) (count windowSecs seed : UInt64) :
    let demand := randomDemand network count.toNat windowSecs seed
    (2 ≤ network.linkIds.length → demand.length = count.toNat ∧
      (demand.map fun p => p.id.val.toNat).Perm (List.range count.toNat)) ∧
    (∀ p ∈ demand, Travels network.linkIds (Time.ofSecs windowSecs) p) ∧
    demand.Pairwise DepartsSooner ∧
    (network.Finite → ∀ (vehicles serviceSecs seed' : UInt64) (params : ScenarioParams),
      params.settings.validate = .ok () →
      ∃ sim, build network (randomFleet network vehicles.toNat serviceSecs seed') demand params = .ok sim ∧
        sim.clock.pending = demand.zipIdx.map submission ∧
        (∀ (number : Nat) (p : PassengerSpec), demand[number]? = some p → ∃ asked,
          sim.upcoming[(⟨number.toUInt64⟩ : RequestId)]? = some asked ∧ asked.passenger = p.id) ∧
        ∀ e ∈ sim.clock.pending, ∀ e' ∈ sim.clock.pending, ∀ id id', e.request? = some id →
          e'.request? = some id' → id ≤ id' → e.time ≤ e'.time) := by
  intro demand
  have sorted : demand.Pairwise DepartsSooner := sorted_randomDemand count
  have travelling : ∀ p ∈ demand, Travels network.linkIds (Time.ofSecs windowSecs) p := travels_randomDemand _
  have few : demand.length ≤ UInt64.size := length_randomDemand_le count
  refine ⟨fun many => ⟨length_randomDemand many count, numbers_randomDemand many count⟩, travelling, sorted, ?_⟩
  intro finite vehicles serviceSecs seed' params valid
  have departures := sorted.imp fun sooner => sooner.le
  obtain ⟨sim, built, pending⟩ := exists_build valid finite (standing_randomFleet vehicles.toNat)
    (nodup_randomFleet vehicles) (fun p member => ⟨(travelling p member).origin, (travelling p member).target⟩)
    departures
  refine ⟨sim, built, pending, fun number p listed => ?_, ?_⟩
  · obtain ⟨asked, found, own⟩ := asked_of_build built listed
    exact ⟨asked, found, own few⟩
  · rw [pending]
    exact fun e member e' member' id id' own own' le => submissions_inOrder few departures member member' own own' le

/-- Three passengers in a small town. Whether its coordinates are finite is a matter of a cosine, of which nothing is
known here; a town without links has none to ask for. -/
theorem random_scenario_grid :
    let town := Network.grid 2 2 {}
    let demand := randomDemand town 3 600 7
    (demand.length = 3 ∧ (demand.map fun p => p.id.val.toNat).Perm [0, 1, 2]) ∧
      (∀ p ∈ demand, p.origin ≠ p.target ∧ p.departure.toNat < 600000) ∧ demand.Pairwise DepartsSooner ∧
      (town.Finite → ∃ sim, build town (randomFleet town 2 3600 7) demand {} = .ok sim ∧
        sim.clock.pending.length = 3) ∧
      ∃ sim, build (.nodesOnly 2 2 {}) (randomFleet (.nodesOnly 2 2 {}) 2 3600 7)
        (randomDemand (.nodesOnly 2 2 {}) 3 600 7) {} = .ok sim ∧ sim.clock.pending = [] := by
  intro town demand
  have many : 2 ≤ town.linkIds.length := by decide +kernel
  have valid : ({} : ScenarioParams).settings.validate = .ok () := rfl
  obtain ⟨all, travelling, sorted, placed⟩ := random_scenario town 3 600 7
  refine ⟨all many, fun p member => ?_, sorted, fun finite => ?_, ?_⟩
  · have window : max (Time.ofSecs 600).toNat 1 = 600000 := by
      rw [Time.toNat_ofSecs]
      decide
    exact ⟨(travelling p member).ne, window ▸ (travelling p member).departure⟩
  · obtain ⟨sim, built, pending, _⟩ := placed finite 2 3600 7 {} valid
    refine ⟨sim, built, ?_⟩
    rw [pending, List.length_map, List.length_zipIdx]
    exact (all many).1
  · have few : (Network.nodesOnly 2 2 {}).linkIds.length < 2 := by decide +kernel
    have finite : (Network.nodesOnly 2 2 {}).Finite := by
      intro id l found
      simp [Network.nodesOnly] at found
    obtain ⟨_, _, _, placed⟩ := random_scenario (.nodesOnly 2 2 {}) 3 600 7
    obtain ⟨sim, built, pending, _⟩ := placed finite 2 3600 7 {} valid
    refine ⟨sim, built, ?_⟩
    rw [pending, randomDemand_of_few few]
    rfl

end RideDispatch.Scenario

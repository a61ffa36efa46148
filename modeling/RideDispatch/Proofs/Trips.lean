import Mathlib.Data.List.Induction
import Mathlib.Logic.Relation
import RideDispatch.Proofs.Passage
import RideDispatch.Proofs.Recall

/-!
# The quickest trips

A `Trip` is a list of connected links of a network, from a link to another. Whatever links are added to a lattice,
as long as they are on it (`RoadCall.InRange`), its network stays regular (`Network.Regular.reply`), so the route
that it finds between two of its links is a quickest trip, and it finds one wherever there is one
(`route_quickest`).
-/

namespace RideDispatch

namespace Network

variable {n : Network} {a b : Link} {ls between : List Link} {u v : Nat}

/-- A link leads from one node to another. -/
def Joined (n : Network) (u v : Nat) : Prop := ∃ l, n.Has l ∧ l.tail = u ∧ l.head = v

/-- Links of the network from one of them to another, each of which starts where the one before ends. -/
structure Trip (n : Network) (a b : Link) (ls : List Link) : Prop where
  links : ∀ l ∈ ls, n.Has l
  departs : ls.head? = some a
  arrives : ls.getLast? = some b
  connected : ls.IsChain fun l l' => l.head = l'.tail

/-- What a network is to answer who asks at a moment for the route from one of its links to another. The first link
of a trip takes no time, since whoever is on it is at its far end. -/
structure Quickest (n : Network) (a b : Link) (departure : Time) (answer : Option Route) : Prop where
  stays : a = b → answer = some ⟨departure, 0, (0 : Time).toSecs, [a.id]⟩
  unreachable : a ≠ b → (answer = none ↔ ¬ Relation.ReflTransGen n.Joined a.head b.tail)
  quickest : a ≠ b → ∀ route, answer = some route →
    route.departure = departure ∧ route.cost = route.travelTime.toSecs ∧
    ∃ ls, n.Trip a b ls ∧ route.links = ls.map Link.id ∧
      (drivingTime ls.tail < UInt64.size → route.travelTime.toNat = drivingTime ls.tail) ∧
      ∀ ls', n.Trip a b ls' → drivingTime ls.tail ≤ drivingTime ls'.tail

/-! ## Trips and passages -/

lemma exists_passage_iff : (∃ ls, n.Passage u ls v) ↔ Relation.ReflTransGen n.Joined u v := by
  constructor
  · rintro ⟨ls, passage⟩
    induction passage with
    | stay u => exact .refl
    | @drive l ls v u has own _ ih => exact .head ⟨l, has, own, rfl⟩ ih
  · intro reach
    induction reach using Relation.ReflTransGen.head_induction_on with
    | refl => exact ⟨[], .stay v⟩
    | head joined _ ih =>
      obtain ⟨l, has, own, rfl⟩ := joined
      obtain ⟨ls, passage⟩ := ih
      exact ⟨l :: ls, .drive _ has own passage⟩

lemma passage_of_isChain (has : ∀ l ∈ between, n.Has l)
    (chain : (a :: (between ++ [b])).IsChain fun l l' => l.head = l'.tail) :
    n.Passage a.head between b.tail := by
  induction between generalizing a with
  | nil =>
    obtain ⟨same, _⟩ := List.isChain_cons_cons.mp chain
    rw [same]
    exact .stay b.tail
  | cons l between ih =>
    obtain ⟨same, chain⟩ := List.isChain_cons_cons.mp chain
    obtain ⟨has, others⟩ := List.forall_mem_cons.mp has
    exact .drive a.head has same.symm (ih others chain)

lemma Passage.trip (passage : n.Passage u between v) (left : a.head = u) (right : v = b.tail) :
    (∀ l ∈ between, n.Has l) ∧ (a :: (between ++ [b])).IsChain fun l l' => l.head = l'.tail := by
  induction passage generalizing a with
  | stay u =>
    exact ⟨List.forall_mem_nil _, List.isChain_cons_cons.mpr ⟨left.trans right, .singleton b⟩⟩
  | @drive l ls v u has own _ ih =>
    obtain ⟨others, chain⟩ := ih rfl right
    exact ⟨List.forall_mem_cons.mpr ⟨has, others⟩, List.isChain_cons_cons.mpr ⟨left.trans own.symm, chain⟩⟩

/-- A trip from a link to another one consists of these links and of a passage between them. -/
lemma trip_iff (has : n.Has a) (has' : n.Has b) (ne : a ≠ b) :
    n.Trip a b ls ↔ ∃ between, ls = a :: (between ++ [b]) ∧ n.Passage a.head between b.tail := by
  constructor
  · rintro ⟨links, departs, arrives, connected⟩
    obtain ⟨rest, rfl⟩ := List.head?_eq_some_iff.mp departs
    cases rest using List.reverseRecOn with
    | nil => exact absurd (Option.some.inj arrives) ne
    | append_singleton between last =>
      rw [← List.cons_append, List.getLast?_concat] at arrives
      obtain rfl := Option.some.inj arrives
      refine ⟨between, rfl, passage_of_isChain (fun l member => links l ?_) connected⟩
      exact List.mem_cons_of_mem _ (List.mem_append_left _ member)
  · rintro ⟨between, rfl, passage⟩
    obtain ⟨links, connected⟩ := passage.trip (a := a) (b := b) rfl rfl
    refine ⟨?_, rfl, ?_, connected⟩
    · simp only [List.forall_mem_cons, List.forall_mem_append]
      exact ⟨has, links, has', List.forall_mem_nil _⟩
    · rw [← List.cons_append, List.getLast?_concat]

lemma drivingTime_concat (ls : List Link) (l : Link) :
    drivingTime (ls ++ [l]) = drivingTime ls + l.travelTime.toNat := by
  simp [drivingTime]

/-! ## The answers of a regular network -/

lemma toNat_ofNat_of_lt {sum : Nat} (fits : sum < UInt64.size) : (Time.ofNat sum).toNat = sum := by
  rw [Time.toNat_ofNat, Time.toNat_never]
  unfold UInt64.size at fits
  omega

/-- A regular network answers every question for the way between two of its links, and rightly. -/
lemma Regular.quickest (h : n.Regular) (has : n.Has a) (has' : n.Has b) (departure : Time) :
    ∃ way, n.way? a.id b.id = .ok way ∧
      n.Quickest a b departure (way.map fun way => way.route departure) := by
  by_cases same : a = b
  · subst same
    refine ⟨some ⟨0, [a.id]⟩, ?_, fun _ => rfl, fun ne => absurd rfl ne, fun ne => absurd rfl ne⟩
    unfold way?
    simp only [show n.links[a.id]? = some a from has, if_true]
  · have ne : a.id ≠ b.id := by
      intro same'
      unfold Has at has has'
      rw [same', has'] at has
      exact same (Option.some.inj has).symm
    obtain ⟨ls, found, passage, least⟩ | ⟨found, nowhere⟩ := h.way?_of_ne has has' ne
    · refine ⟨_, found, fun same' => absurd same' same, fun _ => ⟨nofun, ?_⟩, ?_⟩
      · exact fun unreachable => absurd (exists_passage_iff.mp ⟨ls, passage⟩) unreachable
      · rintro _ route ⟨⟩
        refine ⟨rfl, rfl, a :: (ls ++ [b]), (trip_iff has has' same).mpr ⟨ls, rfl, passage⟩, ?_, ?_, ?_⟩
        · simp [Way.route]
        · rw [List.tail_cons, drivingTime_concat]
          exact toNat_ofNat_of_lt
        · intro ls' trip
          obtain ⟨between, rfl, passage'⟩ := (trip_iff has has' same).mp trip
          rw [List.tail_cons, List.tail_cons, drivingTime_concat, drivingTime_concat]
          exact Nat.add_le_add_right (least between passage') _
    · refine ⟨none, found, fun same' => absurd same' same, fun _ => ⟨fun _ => ?_, fun _ => rfl⟩, nofun⟩
      intro reach
      obtain ⟨ls, passage⟩ := exists_passage_iff.mpr reach
      exact nowhere ls passage

lemma Regular.way?_total (h : n.Regular) (first last : LinkId) : ∃ way, n.way? first last = .ok way := by
  cases found : n.links[first]? with
  | none => exact ⟨none, by simp only [way?, found]⟩
  | some a =>
    cases found' : n.links[last]? with
    | none => exact ⟨none, by simp only [way?, found, found']⟩
    | some b =>
      obtain ⟨way, answered, _⟩ := h.quickest (h.has found) (h.has found') 0
      rw [h.keyed first a found, h.keyed last b found'] at answered
      exact ⟨way, answered⟩

/-- A table of a network takes the ways that the network takes. -/
lemma way?_ofNetwork {first last : LinkId} {way : Option Way} (found : n.way? first last = .ok way) :
    (WayTable.ofNetwork n).way? first last = way := by
  have own : (WayTable.ofNetwork n).network = n := rfl
  unfold WayTable.way?
  unfold way? at found
  simp only [WayTable.searchFrom_ofNetwork, own]
  split at found
  · split at found
    · rename_i same
      cases found
      simp only [if_pos same]
    · rename_i ne
      simp only [if_neg ne, found]
  · cases found
    rfl

end Network

/-! ## Links in range -/

/-- Both ends of the link are on the lattice, and its number fits a word. -/
def Network.InRange (n : Network) (tail head : Position) : Prop :=
  n.nodeAt tail < n.nodeCount ∧ n.nodeAt head < n.nodeCount ∧
    n.nodeAt tail * n.nodeCount + n.nodeAt head < UInt64.size

/-- The links that are to be added are in range. -/
def RoadCall.InRange (n : Network) : RoadCall → Prop
  | .oneWay tail head => n.InRange tail head
  | .double a b => n.InRange a b ∧ n.InRange b a
  | .route _ _ _ => True

namespace Network

variable {n : Network} {tail head : Position} {call : RoadCall}

lemma addOneWay_of_inRange (inRange : n.InRange tail head) :
    n.addOneWay tail head = .ok (n.linkId tail head, n.insertLink (n.nodeAt tail) (n.nodeAt head)) := by
  unfold addOneWay
  rw [decide_eq_true inRange.1]
  rfl

/-- The network with links between some pairs of nodes, added one after the other. -/
def insertLinks (n : Network) (pairs : List (Nat × Nat)) : Network :=
  pairs.foldl (fun n ends => n.insertLink ends.1 ends.2) n

/-- The pairs of nodes between which a call adds links. -/
def ends (n : Network) : RoadCall → List (Nat × Nat)
  | .oneWay tail head => [(n.nodeAt tail, n.nodeAt head)]
  | .double a b => [(n.nodeAt a, n.nodeAt b), (n.nodeAt b, n.nodeAt a)]
  | .route _ _ _ => []

/-- A regular network replies to every call in range, adds just the links that are asked for, and stays regular on
the same lattice. -/
lemma Regular.reply (h : n.Regular) (inRange : call.InRange n) :
    ∃ reply, n.reply call = .ok (reply, n.insertLinks (n.ends call)) ∧ (n.insertLinks (n.ends call)).Regular ∧
      ∀ call' : RoadCall, call'.InRange (n.insertLinks (n.ends call)) ↔ call'.InRange n := by
  cases call with
  | oneWay tail head =>
    simp only [Network.reply, addOneWay_of_inRange inRange]
    exact ⟨_, rfl, h.insertLink inRange.1 inRange.2.1 inRange.2.2, fun call' => by cases call' <;> rfl⟩
  | double a b =>
    obtain ⟨forth, back⟩ := inRange
    have first := h.insertLink forth.1 forth.2.1 forth.2.2
    have back' : (n.insertLink (n.nodeAt a) (n.nodeAt b)).InRange b a := back
    simp only [Network.reply, addDouble, addOneWay_of_inRange forth, bind, Except.bind,
      addOneWay_of_inRange back']
    exact ⟨_, rfl, first.insertLink back.1 back.2.1 back.2.2, fun call' => by cases call' <;> rfl⟩
  | route origin target departure =>
    obtain ⟨way, found⟩ := h.way?_total origin.link target.link
    simp only [Network.reply, found]
    exact ⟨_, rfl, h, fun _ => Iff.rfl⟩

end Network

variable {calls : List RoadCall}

/-- As long as links in range are added, every call is replied to, and the network stays regular. -/
lemma CachedNetwork.Coherent.regular {c : CachedNetwork} (h : c.Coherent) (regular : c.network.Regular)
    (inRange : ∀ call ∈ calls, call.InRange c.network) :
    ∃ c', (transcript CachedNetwork.reply c calls).2 = .ok c' ∧ c'.Coherent ∧ c'.network.Regular := by
  induction calls generalizing c with
  | nil => exact ⟨c, rfl, h, regular⟩
  | cons call calls ih =>
    obtain ⟨here, later⟩ := List.forall_mem_cons.mp inRange
    obtain ⟨reply, replied, regular', same⟩ := regular.reply here
    obtain ⟨fault, _, failed⟩ | ⟨reply', c', replied', replied'', coherent⟩ := h.reply call
    · rw [replied] at failed
      cases failed
    · obtain ⟨_, next⟩ := Prod.mk.inj (Except.ok.inj (replied.symm.trans replied''))
      rw [next] at regular' same
      obtain ⟨c'', last, kept⟩ := ih coherent regular' fun call member => (same call).mpr (later call member)
      refine ⟨c'', ?_, kept⟩
      unfold transcript
      rw [replied']
      exact last

/-- Whatever links in range have been added to a lattice, and whatever routes have been asked for before, a network
that remembers its answers, and the table that is made of it, give the quickest route from one of its links to
another, and give one wherever there is one. -/
theorem route_quickest (columns rows : Nat) (params : NetworkParams) (calls : List RoadCall)
    (inRange : ∀ call ∈ calls, call.InRange (.nodesOnly columns rows params)) :
    ∃ c, (transcript CachedNetwork.reply { network := .nodesOnly columns rows params } calls).2 = .ok c ∧
      ∀ (a b : Link) (origin target : Place) (departure : Time),
        c.network.Has a → c.network.Has b → origin.link = a.id → target.link = b.id →
        ∃ answer c', c.route? origin target departure = .ok (answer, c') ∧
          (WayTable.ofNetwork c.network).router.route? origin target departure = answer ∧
          c.network.Quickest a b departure answer := by
  obtain ⟨c, last, coherent, regular⟩ := (CachedNetwork.coherent_fresh _).regular
    (Network.regular_nodesOnly columns rows params) inRange
  refine ⟨c, last, ?_⟩
  rintro a b ⟨_, _⟩ ⟨_, _⟩ departure has has' rfl rfl
  obtain ⟨way, found, quickest⟩ := regular.quickest has has' departure
  refine ⟨_, c.remember ⟨a.id, b.id⟩ way, ?_, ?_, quickest⟩
  · rw [coherent.route?]
    simp only [found]
    rfl
  · exact congrArg (Option.map fun way => way.route departure) (Network.way?_ofNetwork found)

/-- Two one-way links, the second of which starts where the first one ends. -/
def corner : List RoadCall := [.oneWay ⟨0, 0⟩ ⟨1, 0⟩, .oneWay ⟨1, 0⟩ ⟨1, 1⟩]

theorem route_quickest_corner :
    (∀ call ∈ corner, call.InRange (.nodesOnly 2 2 {})) ∧
      ∃ (c : CachedNetwork) (a b : Link), c.network.Has a ∧ c.network.Has b ∧ a ≠ b ∧
        ∀ here there : Coordinate, ∃ route c',
          c.route? ⟨a.id, here⟩ ⟨b.id, there⟩ 0 = .ok (some route, c') ∧
          c.network.Quickest a b 0 (some route) := by
  have inRange : ∀ call ∈ corner, call.InRange (.nodesOnly 2 2 {}) := by
    unfold corner
    simp only [List.forall_mem_cons]
    refine ⟨?_, ?_, List.forall_mem_nil _⟩
    · unfold RoadCall.InRange Network.InRange
      decide
    · unfold RoadCall.InRange Network.InRange
      decide
  obtain ⟨c, last, answers⟩ := route_quickest 2 2 {} corner inRange
  let n := (Network.nodesOnly 2 2 {}).insertLink 0 2
  obtain rfl : c = { network := n.insertLink 2 3 } := (Except.ok.inj last).symm
  let a := (Network.nodesOnly 2 2 {}).newLink 0 2
  let b := n.newLink 2 3
  have has : (n.insertLink 2 3).Has a := by
    unfold Network.Has
    rw [Network.getElem?_links_insertLink, if_neg (by decide), Network.getElem?_links_insertLink]
    exact if_pos rfl
  have has' : (n.insertLink 2 3).Has b := by
    unfold Network.Has
    rw [Network.getElem?_links_insertLink]
    exact if_pos rfl
  have ne : a ≠ b := fun same => absurd (congrArg Link.tail same) (by decide)
  refine ⟨inRange, { network := n.insertLink 2 3 }, a, b, has, has', ne, fun here there => ?_⟩
  obtain ⟨answer, c', found, _, quickest⟩ := answers a b ⟨a.id, here⟩ ⟨b.id, there⟩ 0 has has' rfl rfl
  cases answer with
  | none => exact absurd .refl ((quickest.unreachable ne).mp rfl)
  | some route => exact ⟨route, c', found, quickest⟩

end RideDispatch

import Mathlib.Data.List.Induction
import Mathlib.Tactic.Lemma
import RideDispatch.Dispatch.Finder

/-!
# What the finders find

A finder asks for the route of every candidate and goes through the answers once. At every moment it holds the
earliest of the arrivals that it has seen, the first one of several (`Scanned.next`), so at the end it holds the
earliest of all (`earliestArrival?_eq_some`), or none if no candidate has a route (`earliestArrival?_eq_none`). As
the answers stand in the order of the candidates, the position of an answer is the position of the candidate to whom
it belongs, and a finder takes a candidate with that candidate's own route (`best_pairings`).
-/

namespace RideDispatch

/-! ## The earliest arrival -/

section Arrival

variable {found : List (Option Route)} {answer : Option Route} {best : Option (Nat × Route)} {idx i : Nat}
variable {route other : Route}

/-- The answer at a position arrives first: none arrives before it, and none of those that stand before it arrives at
the same time. -/
structure EarliestAt (found : List (Option Route)) (idx : Nat) (route : Route) : Prop where
  answer : found[idx]? = some (some route)
  le : ∀ (i : Nat) (other : Route), found[i]? = some (some other) → route.arrival ≤ other.arrival
  lt : ∀ i < idx, ∀ other : Route, found[i]? = some (some other) → route.arrival < other.arrival

/-- There is but one earliest arrival. -/
lemma EarliestAt.unique {idx' : Nat} {route' : Route} (h : EarliestAt found idx route)
    (h' : EarliestAt found idx' route') : idx = idx' ∧ route = route' := by
  have same : idx = idx' := by
    rcases Nat.lt_trichotomy idx idx' with first | same | later
    · exact absurd (h.le _ _ h'.answer) (Time.not_le.mpr (h'.lt _ first _ h.answer))
    · exact same
    · exact absurd (h'.le _ _ h.answer) (Time.not_le.mpr (h.lt _ later _ h'.answer))
  subst same
  exact ⟨rfl, Option.some.inj (Option.some.inj (h.answer.symm.trans h'.answer))⟩

/-- What is held after some answers: their earliest arrival, and nothing if there is none. -/
def Scanned (found : List (Option Route)) : Option (Nat × Route) → Prop
  | none => ∀ answer ∈ found, answer = none
  | some (idx, route) => EarliestAt found idx route

/-- An answer among those so far and one more is one of those so far, or the one that has come. -/
lemma getElem?_concat_eq_some : (found ++ [answer])[i]? = some (some other) ↔
    found[i]? = some (some other) ∨ i = found.length ∧ answer = some other := by
  rcases Nat.lt_trichotomy i found.length with before | last | beyond
  · rw [List.getElem?_append_left before]
    exact ⟨.inl, fun h => h.resolve_right fun last => absurd last.1 (Nat.ne_of_lt before)⟩
  · subst last
    rw [List.getElem?_concat_length, List.getElem?_eq_none (Nat.le_refl _), Option.some.injEq]
    simp
  · have length : (found ++ [answer]).length ≤ i := by
      rw [List.length_append]
      exact beyond
    rw [List.getElem?_eq_none length, List.getElem?_eq_none (Nat.le_of_lt beyond)]
    simpa using fun last => absurd last (Nat.ne_of_gt beyond)

/-- An answer that does not arrive before the earliest one so far changes nothing. -/
lemma EarliestAt.keep (h : EarliestAt found idx route)
    (later : ∀ other, answer = some other → route.arrival ≤ other.arrival) :
    EarliestAt (found ++ [answer]) idx route where
  answer := getElem?_concat_eq_some.mpr (.inl h.answer)
  le i other here := by
    rcases getElem?_concat_eq_some.mp here with seen | ⟨-, own⟩
    · exact h.le i other seen
    · exact later other own
  lt i before other here := by
    rcases getElem?_concat_eq_some.mp here with seen | ⟨same, -⟩
    · exact h.lt i before other seen
    · -- the earliest one stands among the answers so far
      have inside := (List.getElem?_eq_some_iff.mp h.answer).1
      omega

/-- An answer that arrives before all so far is the earliest. -/
lemma EarliestAt.last
    (beats : ∀ (i : Nat) (other : Route), found[i]? = some (some other) → route.arrival < other.arrival) :
    EarliestAt (found ++ [some route]) found.length route where
  answer := List.getElem?_concat_length
  le i other here := by
    rcases getElem?_concat_eq_some.mp here with seen | ⟨-, own⟩
    · exact Time.le_iff.mpr (Nat.le_of_lt (Time.lt_iff.mp (beats i other seen)))
    · cases own
      exact Time.le_iff.mpr (Nat.le_refl _)
  lt i before other here := by
    rcases getElem?_concat_eq_some.mp here with seen | ⟨same, -⟩
    · exact beats i other seen
    · exact absurd same (Nat.ne_of_lt before)

/-- After one more answer the earliest of all of them is held. -/
lemma Scanned.next (h : Scanned found best) (answer : Option Route) :
    Scanned (found ++ [answer]) (sooner best (answer, found.length)) := by
  cases answer with
  | none =>
    cases best with
    | none =>
      intro seen member
      exact (List.mem_append.mp member).elim (h seen) List.mem_singleton.mp
    | some held => exact h.keep nofun
  | some route =>
    cases best with
    | none => exact EarliestAt.last fun i other here => nomatch h _ (List.mem_of_getElem? here)
    | some held =>
      unfold sooner
      simp only [Option.all_some, decide_eq_true_eq]
      split
      · rename_i earlier
        refine EarliestAt.last fun i other here => Time.lt_iff.mpr ?_
        exact Nat.lt_of_lt_of_le (Time.lt_iff.mp earlier) (Time.le_iff.mp (h.le i other here))
      · rename_i later
        refine h.keep fun other own => ?_
        cases own
        exact Time.not_lt.mp later

/-- Going through all answers. -/
lemma scanned_earliestArrival? (found : List (Option Route)) : Scanned found (earliestArrival? found) := by
  induction found using List.reverseRecOn with
  | nil => exact nofun
  | append_singleton found answer ih =>
    have step : earliestArrival? (found ++ [answer]) = sooner (earliestArrival? found) (answer, found.length) := by
      unfold earliestArrival?
      rw [List.zipIdx_append, List.foldl_append, Nat.zero_add]
      rfl
    rw [step]
    exact ih.next answer

lemma earliestArrival?_eq_some : earliestArrival? found = some (idx, route) ↔ EarliestAt found idx route := by
  have held := scanned_earliestArrival? found
  constructor
  · intro best
    rwa [best] at held
  · intro h
    cases best : earliestArrival? found with
    | none =>
      rw [best] at held
      cases held _ (List.mem_of_getElem? h.answer)
    | some first =>
      rw [best] at held
      obtain ⟨same, same'⟩ := EarliestAt.unique held h
      rw [← same, ← same']

lemma earliestArrival?_eq_none : earliestArrival? found = none ↔ ∀ answer ∈ found, answer = none := by
  have held := scanned_earliestArrival? found
  constructor
  · intro best
    rwa [best] at held
  · intro nothing
    rw [Option.eq_none_iff_forall_ne_some]
    rintro ⟨idx, route⟩ best
    cases nothing _ (List.mem_of_getElem? (earliestArrival?_eq_some.mp best).answer)

end Arrival

/-! ## The candidates -/

section Candidates

variable {α : Type} {routeOf : α → Option Route} {candidates : List α} {pair : α → Route → Pairing}
variable {pairing : Pairing}

/-- Pairing up the candidate to whom the earliest arrival belongs. -/
def pairEarliest? (routeOf : α → Option Route) (candidates : List α) (pair : α → Route → Pairing) : Option Pairing :=
  (earliestArrival? (candidates.map routeOf)).bind fun best => candidates[best.1]?.bind fun c => some (pair c best.2)

/-- The candidate to whom an answer belongs is there. -/
lemma EarliestAt.exists_candidate {idx : Nat} {route : Route} (h : EarliestAt (candidates.map routeOf) idx route) :
    ∃ c, candidates[idx]? = some c ∧ routeOf c = some route := by
  have own := h.answer
  rw [List.getElem?_map, Option.map_eq_some_iff] at own
  exact own

lemma pairEarliest?_eq_some : pairEarliest? routeOf candidates pair = some pairing ↔ ∃ idx c route,
    candidates[idx]? = some c ∧ EarliestAt (candidates.map routeOf) idx route ∧ pairing = pair c route := by
  unfold pairEarliest?
  simp only [Option.bind_eq_some_iff, Prod.exists, earliestArrival?_eq_some, Option.some.injEq]
  constructor
  · rintro ⟨idx, route, first, c, here, rfl⟩
    exact ⟨idx, c, route, here, first, rfl⟩
  · rintro ⟨idx, c, route, here, first, rfl⟩
    exact ⟨idx, route, first, c, here, rfl⟩

/-- Who is paired up is a candidate, with their own route. -/
lemma exists_of_pairEarliest? (h : pairEarliest? routeOf candidates pair = some pairing) :
    ∃ c ∈ candidates, ∃ route, routeOf c = some route ∧ pairing = pair c route := by
  obtain ⟨idx, c, route, here, first, rfl⟩ := pairEarliest?_eq_some.mp h
  obtain ⟨c', here', found⟩ := first.exists_candidate
  obtain rfl := Option.some.inj (here.symm.trans here')
  exact ⟨c, List.mem_of_getElem? here, route, found, rfl⟩

lemma pairEarliest?_eq_none :
    pairEarliest? routeOf candidates pair = none ↔ ∀ c ∈ candidates, routeOf c = none := by
  rw [← List.forall_mem_map (P := fun answer => answer = none), ← earliestArrival?_eq_none]
  unfold pairEarliest?
  cases best : earliestArrival? (candidates.map routeOf) with
  | none => simp
  | some first =>
    obtain ⟨c, here, -⟩ := (earliestArrival?_eq_some.mp best).exists_candidate
    simp [here]

end Candidates

section Finders

variable {router : Router} {pairing : Pairing}
variable {request : Request} {vehicle : VehicleEntry}

lemma bestVehicle?_eq_pairEarliest? {candidates : List VehicleEntry} : bestVehicle? router request candidates =
    pairEarliest? (fun v => router.route? v.place request.origin v.availableAt) candidates
      fun v route => ⟨v.id, request.id, route⟩ := by
  unfold bestVehicle? pairEarliest? Router.routesTo
  rw [List.map_map]
  rfl

lemma bestRequest?_eq_pairEarliest? {candidates : List Request} : bestRequest? router vehicle candidates =
    pairEarliest? (fun r => router.route? vehicle.place r.origin vehicle.availableAt) candidates
      fun r route => ⟨vehicle.id, r.id, route⟩ := by
  unfold bestRequest? pairEarliest? Router.routesFrom
  rw [List.map_map]
  rfl

lemma bestVehicle?_eq_some {candidates : List VehicleEntry}
    (h : bestVehicle? router request candidates = some pairing) :
    pairing.request = request.id ∧ ∃ v ∈ candidates, v.id = pairing.vehicle ∧
      router.route? v.place request.origin v.availableAt = some pairing.pickup := by
  rw [bestVehicle?_eq_pairEarliest?] at h
  obtain ⟨v, candidate, route, found, rfl⟩ := exists_of_pairEarliest? h
  exact ⟨rfl, v, candidate, rfl, found⟩

lemma bestVehicle?_eq_none {candidates : List VehicleEntry} :
    bestVehicle? router request candidates = none ↔
      ∀ v ∈ candidates, router.route? v.place request.origin v.availableAt = none := by
  rw [bestVehicle?_eq_pairEarliest?, pairEarliest?_eq_none]

lemma bestRequest?_eq_some {candidates : List Request}
    (h : bestRequest? router vehicle candidates = some pairing) :
    pairing.vehicle = vehicle.id ∧ ∃ r ∈ candidates, r.id = pairing.request ∧
      router.route? vehicle.place r.origin vehicle.availableAt = some pairing.pickup := by
  rw [bestRequest?_eq_pairEarliest?] at h
  obtain ⟨r, candidate, route, found, rfl⟩ := exists_of_pairEarliest? h
  exact ⟨rfl, r, candidate, rfl, found⟩

lemma bestRequest?_eq_none {candidates : List Request} :
    bestRequest? router vehicle candidates = none ↔
      ∀ r ∈ candidates, router.route? vehicle.place r.origin vehicle.availableAt = none := by
  rw [bestRequest?_eq_pairEarliest?, pairEarliest?_eq_none]

/-- Whatever the router, the request or the vehicle and its candidates: a finder finds nothing just if no candidate has
a route. What it finds pairs up the candidate that arrives first, the first one in the list of several, with that
candidate's own route: from its own place at the time at which it is available, or from the place of the vehicle at
the time at which the vehicle is. -/
theorem best_pairings (router : Router) (request : Request) (vehicle : VehicleEntry)
    (vehicles : List VehicleEntry) (requests : List Request) :
    (bestVehicle? router request vehicles = none ↔
      ∀ v ∈ vehicles, router.route? v.place request.origin v.availableAt = none) ∧
    (∀ pairing, bestVehicle? router request vehicles = some pairing ↔ ∃ idx v route,
      vehicles[idx]? = some v ∧
      EarliestAt (vehicles.map fun w => router.route? w.place request.origin w.availableAt) idx route ∧
      pairing = ⟨v.id, request.id, route⟩) ∧
    (bestRequest? router vehicle requests = none ↔
      ∀ r ∈ requests, router.route? vehicle.place r.origin vehicle.availableAt = none) ∧
    (∀ pairing, bestRequest? router vehicle requests = some pairing ↔ ∃ idx r route,
      requests[idx]? = some r ∧
      EarliestAt (requests.map fun s => router.route? vehicle.place s.origin vehicle.availableAt) idx route ∧
      pairing = ⟨vehicle.id, r.id, route⟩) := by
  refine ⟨bestVehicle?_eq_none, fun pairing => ?_, bestRequest?_eq_none, fun pairing => ?_⟩
  · rw [bestVehicle?_eq_pairEarliest?, pairEarliest?_eq_some]
  · rw [bestRequest?_eq_pairEarliest?, pairEarliest?_eq_some]

end Finders

end RideDispatch

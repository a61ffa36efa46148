import RideDispatch.Proofs.Defects
import RideDispatch.Proofs.EdgeList

/-!
# The best pairings of a cycle

The assignment strategy pairs along a graph: a request and a vehicle are joined in it if one of them is
among those nearest to the other and there is a route from the vehicle to the pickup (`Batch.graph`). Of
that graph it opens exactly the pairings of a matching that has as many pairs as possible and costs as
little as so many can (`Batch.schedule_best`), in whatever state a cycle finds the dispatcher
(`Dispatcher.batch_best`). Where one side is not larger than the limit for its neighbours, everything that
a route connects is joined (`Batch.edge_of_few`).
-/

namespace RideDispatch

/-! ## Maps of numbered places -/

namespace Batch

variable {settings : Settings} {resolution : Resolution} {router : Router}
variable {requests : List Request} {vehicles : List VehicleEntry} {places : List Place}

lemma place?_zonesOf {i : Nat} : (zonesOf resolution places).place? i = places[i]? := by
  induction places using List.reverseRecOn with
  | nil =>
    show (ZoneMap.empty resolution : ZoneMap Nat).place? i = none
    simp [ZoneMap.place?, ZoneMap.empty]
  | append_singleton places place ih =>
    have last : zonesOf resolution (places ++ [place]) =
        (zonesOf resolution places).insert places.length place := by
      unfold zonesOf
      rw [List.zipIdx_append, List.foldl_append]
      simp
    rw [last, ZoneMap.place?_insert, ih]
    split
    · rename_i same
      rw [← same, List.getElem?_concat_length]
    · rename_i other
      by_cases before : i < places.length
      · rw [List.getElem?_append_left before]
      · rw [List.getElem?_eq_none (by omega), List.getElem?_eq_none]
        rw [List.length_append, List.length_singleton]
        omega

lemma contains_zonesOf {i : Nat} : (zonesOf resolution places).contains i = decide (i < places.length) := by
  rw [ZoneMap.contains_eq_isSome_place?, place?_zonesOf]
  by_cases before : i < places.length
  · rw [List.getElem?_eq_getElem before, decide_eq_true before, Option.isSome_some]
  · rw [List.getElem?_eq_none (Nat.not_lt.mp before), decide_eq_false before, Option.isSome_none]

lemma length_keys_zonesOf : (zonesOf resolution places).keys.length = places.length := by
  have order : (zonesOf resolution places).keys.Perm (List.range places.length) := by
    refine (List.perm_ext_iff_of_nodup ZoneMap.nodup_keys List.nodup_range).mpr ?_
    intro i
    rw [ZoneMap.mem_keys, contains_zonesOf, decide_eq_true_iff, List.mem_range]
  rw [order.length_eq, List.length_range]

/-- If there are no more places than are asked for, all of them are near. -/
lemma mem_nearest_zonesOf {i limit : Nat} {coord : Coordinate} (few : places.length ≤ limit) :
    i ∈ (zonesOf resolution places).nearest coord limit (fun _ => true) ↔ i < places.length := by
  have all : (zonesOf resolution places).keys.filter (fun _ => true) = (zonesOf resolution places).keys :=
    List.filter_eq_self.mpr fun _ _ => rfl
  rw [ZoneMap.mem_nearest_of_few (by rwa [all, length_keys_zonesOf]), contains_zonesOf, decide_eq_true_iff]
  exact and_iff_left rfl

/-! ## The graph -/

/-- A request and a vehicle that could be paired, with the route to the pickup. -/
structure Link where
  request : Request
  vehicle : VehicleEntry
  pickup : Route

/-- The pairing of a link. -/
def Link.pairing (l : Link) : Pairing := ⟨l.vehicle.id, l.request.id, l.pickup⟩

/-- The numbers of the vehicles nearest to the pickup of a request. -/
def nearVehicles (settings : Settings) (resolution : Resolution) (vehicles : List VehicleEntry)
    (request : Request) : List Nat :=
  (zonesOf resolution (vehicles.map VehicleEntry.place)).nearest request.origin.coord
    settings.nearestVehiclesLimit fun _ => true

/-- The numbers of the requests whose pickups are nearest to a vehicle. -/
def nearRequests (settings : Settings) (resolution : Resolution) (requests : List Request)
    (vehicle : VehicleEntry) : List Nat :=
  (zonesOf resolution (requests.map Request.origin)).nearest vehicle.place.coord
    settings.nearestRequestsLimit fun _ => true

/-- A request and a vehicle of given numbers are near: one of them is among the nearest to the other. -/
def Near (settings : Settings) (resolution : Resolution) (requests : List Request)
    (vehicles : List VehicleEntry) (request : Request) (vehicle : VehicleEntry) (c : Candidate) : Prop :=
  c.vehicle ∈ nearVehicles settings resolution vehicles request ∨
    c.request ∈ nearRequests settings resolution requests vehicle

/-- The candidates of a cycle: requests and vehicles that are near to each other and connected. -/
structure Linked (settings : Settings) (resolution : Resolution) (router : Router)
    (requests : List Request) (vehicles : List VehicleEntry) (l : Link) : Prop where
  near : ∃ c : Candidate, requests[c.request]? = some l.request ∧ vehicles[c.vehicle]? = some l.vehicle ∧
    Near settings resolution requests vehicles l.request l.vehicle c
  connected : router.route? l.vehicle.place l.request.origin l.vehicle.availableAt = some l.pickup

/-- The graph of the candidates. A link costs what the strategy takes for its cost, in milliseconds. -/
def graph (settings : Settings) (resolution : Resolution) (router : Router) (requests : List Request)
    (vehicles : List VehicleEntry) : Matching.Graph Link RequestId VehicleId where
  edge := Linked settings resolution router requests vehicles
  left l := l.request.id
  right l := l.vehicle.id
  cost l := Matching.costMs (cost settings.waitTimeWeight l.request l.pickup)

/-- Where the vehicles or the requests are few, all that is connected is linked. -/
theorem edge_of_few {l : Link} (request : l.request ∈ requests) (vehicle : l.vehicle ∈ vehicles)
    (connected : router.route? l.vehicle.place l.request.origin l.vehicle.availableAt = some l.pickup)
    (few : vehicles.length ≤ settings.nearestVehiclesLimit ∨
      requests.length ≤ settings.nearestRequestsLimit) :
    (graph settings resolution router requests vehicles).edge l := by
  obtain ⟨i, row⟩ := List.mem_iff_getElem?.mp request
  obtain ⟨j, column⟩ := List.mem_iff_getElem?.mp vehicle
  refine ⟨⟨⟨i, j⟩, row, column, ?_⟩, connected⟩
  rcases few with few | few
  · left
    unfold nearVehicles
    rw [mem_nearest_zonesOf (by rwa [List.length_map]), List.length_map]
    exact (List.getElem?_eq_some_iff.mp column).1
  · right
    unfold nearRequests
    rw [mem_nearest_zonesOf (by rwa [List.length_map]), List.length_map]
    exact (List.getElem?_eq_some_iff.mp row).1

/-! ## Candidates and offers -/

variable {c : Candidate} {o : Offer}

lemma mem_candidates : c ∈ candidates settings resolution requests vehicles ↔
    ∃ request vehicle, requests[c.request]? = some request ∧ vehicles[c.vehicle]? = some vehicle ∧
      Near settings resolution requests vehicles request vehicle c := by
  have listed : candidates settings resolution requests vehicles =
      (requests.map (nearVehicles settings resolution vehicles)).zipIdx.flatMap fun row =>
        (List.range vehicles.length).filterMap fun v =>
          if row.1.contains v ||
              ((vehicles.map (nearRequests settings resolution requests)).getD v []).contains row.2 then
            some ⟨row.2, v⟩
          else none := rfl
  rw [listed]
  constructor
  · intro member
    obtain ⟨⟨near, i⟩, row, member⟩ := List.mem_flatMap.mp member
    obtain ⟨j, column, chosen⟩ := List.mem_filterMap.mp member
    rw [List.mk_mem_zipIdx_iff_getElem?, List.getElem?_map] at row
    obtain ⟨request, found, rfl⟩ := Option.map_eq_some_iff.mp row
    have found' := List.getElem?_eq_getElem (List.mem_range.mp column)
    split at chosen
    · rename_i near
      cases chosen
      refine ⟨request, _, found, found', ?_⟩
      rwa [Bool.or_eq_true, List.contains_iff_mem, List.contains_iff_mem, List.getD_eq_getElem?_getD,
        List.getElem?_map, found', Option.map_some, Option.getD_some] at near
    · cases chosen
  · rintro ⟨request, vehicle, found, found', near⟩
    have row : (nearVehicles settings resolution vehicles request, c.request) ∈
        (requests.map (nearVehicles settings resolution vehicles)).zipIdx := by
      rw [List.mk_mem_zipIdx_iff_getElem?, List.getElem?_map, found, Option.map_some]
    have column := List.mem_range.mpr (List.getElem?_eq_some_iff.mp found').1
    refine List.mem_flatMap.mpr ⟨_, row, List.mem_filterMap.mpr ⟨c.vehicle, column, if_pos ?_⟩⟩
    rwa [Bool.or_eq_true, List.contains_iff_mem, List.contains_iff_mem, List.getD_eq_getElem?_getD,
      List.getElem?_map, found', Option.map_some, Option.getD_some]

/-- The offers of a cycle. -/
def offers (settings : Settings) (resolution : Resolution) (router : Router) (requests : List Request)
    (vehicles : List VehicleEntry) : List Offer :=
  (candidates settings resolution requests vehicles).filterMap
    (offer? settings router requests vehicles)

lemma mem_offers : o ∈ offers settings resolution router requests vehicles ↔
    ∃ l : Link, requests[o.candidate.request]? = some l.request ∧
      vehicles[o.candidate.vehicle]? = some l.vehicle ∧
      Near settings resolution requests vehicles l.request l.vehicle o.candidate ∧
      router.route? l.vehicle.place l.request.origin l.vehicle.availableAt = some l.pickup ∧
      o = ⟨o.candidate, l.pickup, cost settings.waitTimeWeight l.request l.pickup⟩ := by
  unfold offers
  rw [List.mem_filterMap]
  constructor
  · rintro ⟨c, member, offered⟩
    obtain ⟨request, vehicle, row, column, near⟩ := mem_candidates.mp member
    obtain ⟨request', vehicle', pickup, row', column', route, rfl⟩ := offer?_eq_some.mp offered
    obtain rfl := Option.some.inj (row.symm.trans row')
    obtain rfl := Option.some.inj (column.symm.trans column')
    exact ⟨⟨request, vehicle, pickup⟩, row, column, near, route, rfl⟩
  · rintro ⟨l, row, column, near, route, own⟩
    refine ⟨o.candidate, mem_candidates.mpr ⟨l.request, l.vehicle, row, column, near⟩, ?_⟩
    exact offer?_eq_some.mpr ⟨l.request, l.vehicle, l.pickup, row, column, route, own⟩

/-- A candidate has one offer. -/
lemma offer_unique {o' : Offer} (member : o ∈ offers settings resolution router requests vehicles)
    (member' : o' ∈ offers settings resolution router requests vehicles)
    (same : o.candidate = o'.candidate) : o = o' := by
  obtain ⟨l, row, column, _, route, own⟩ := mem_offers.mp member
  obtain ⟨l', row', column', _, route', own'⟩ := mem_offers.mp member'
  rw [same, row'] at row
  rw [same, column'] at column
  have requests_ := Option.some.inj row
  have vehicles_ := Option.some.inj column
  rw [requests_, vehicles_, route] at route'
  rw [own, own', same, requests_, Option.some.inj route']

/-! ## Links and entries -/

/-- The entries of the matrix of a cycle. -/
def entries (settings : Settings) (resolution : Resolution) (router : Router) (requests : List Request)
    (vehicles : List VehicleEntry) : List Matching.Entry :=
  Matching.entries requests.length vehicles.length
    ((offers settings resolution router requests vehicles).map Offer.edge)

/-- The entry of a link, in the places of its request and its vehicle. -/
def Link.entry (settings : Settings) (requests : List Request) (vehicles : List VehicleEntry) (l : Link) :
    Matching.Entry :=
  ⟨(requests.map Request.id).idxOf l.request.id, (vehicles.map VehicleEntry.id).idxOf l.vehicle.id,
    Matching.costMs (cost settings.waitTimeWeight l.request l.pickup)⟩

/-- The entry of an offer. -/
def Offer.entry (o : Offer) : Matching.Entry :=
  ⟨o.candidate.request, o.candidate.vehicle, Matching.costMs o.cost⟩

lemma mem_entries {e : Matching.Entry} : e ∈ entries settings resolution router requests vehicles ↔
    ∃ o ∈ offers settings resolution router requests vehicles, o.entry = e := by
  unfold entries Matching.entries
  rw [List.mem_map]
  constructor
  · rintro ⟨edge, listed, rfl⟩
    obtain ⟨o, member, rfl⟩ := List.mem_map.mp (List.mem_filter.mp listed).1
    exact ⟨o, member, rfl⟩
  · rintro ⟨o, member, rfl⟩
    obtain ⟨l, row, column, _⟩ := mem_offers.mp member
    refine ⟨o.edge, List.mem_filter.mpr ⟨List.mem_map.mpr ⟨o, member, rfl⟩, ?_⟩, rfl⟩
    exact decide_eq_true
      ⟨(List.getElem?_eq_some_iff.mp row).1, (List.getElem?_eq_some_iff.mp column).1⟩

lemma idxOf_of_getElem? {α κ : Type} [DecidableEq κ] {key : α → κ} {xs : List α} {i : Nat} {x : α}
    (distinct : (xs.map key).Nodup) (found : xs[i]? = some x) : (xs.map key).idxOf (key x) = i := by
  obtain ⟨bound, rfl⟩ := List.getElem?_eq_some_iff.mp found
  have place := distinct.idxOf_getElem i (by rwa [List.length_map])
  rwa [List.getElem_map] at place

section Distinct

variable (distinctRequests : (requests.map Request.id).Nodup)
variable (distinctVehicles : (vehicles.map VehicleEntry.id).Nodup)
include distinctRequests distinctVehicles

lemma entry_eq {l : Link} (row : requests[c.request]? = some l.request)
    (column : vehicles[c.vehicle]? = some l.vehicle) : l.entry settings requests vehicles =
      ⟨c.request, c.vehicle, Matching.costMs (cost settings.waitTimeWeight l.request l.pickup)⟩ := by
  unfold Link.entry
  rw [idxOf_of_getElem? distinctRequests row, idxOf_of_getElem? distinctVehicles column]

/-- Links are the entries of the matrix. -/
lemma embeds_entry : (graph settings resolution router requests vehicles).Embeds
    (Matching.graph (entries settings resolution router requests vehicles))
    (Link.entry settings requests vehicles) where
  edge l linked := by
    obtain ⟨⟨c, row, column, near⟩, route⟩ := linked
    refine Matching.edge_of_mem ?_ ?_
    · -- no place has two entries, for a candidate has one offer
      intro e member e' member' sameRow sameColumn
      obtain ⟨o, offered, rfl⟩ := mem_entries.mp member
      obtain ⟨o', offered', rfl⟩ := mem_entries.mp member'
      have same : o.candidate = o'.candidate := by
        obtain ⟨⟨i, j⟩, _, _⟩ := o
        obtain ⟨⟨i', j'⟩, _, _⟩ := o'
        obtain rfl : i = i' := sameRow
        obtain rfl : j = j' := sameColumn
        rfl
      rw [offer_unique offered offered' same]
    · refine mem_entries.mpr ⟨⟨c, l.pickup, cost settings.waitTimeWeight l.request l.pickup⟩, ?_, ?_⟩
      · exact mem_offers.mpr ⟨l, row, column, near, route, rfl⟩
      · exact (entry_eq distinctRequests distinctVehicles row column).symm
  cost _ _ := rfl
  left l l' linked _ := by
    obtain ⟨⟨c, row, _⟩, _⟩ := linked
    exact List.idxOf_inj (List.mem_map_of_mem (List.mem_of_getElem? row))
  right l l' linked _ := by
    obtain ⟨⟨c, _, column, _⟩, _⟩ := linked
    exact List.idxOf_inj (List.mem_map_of_mem (List.mem_of_getElem? column))

/-- The link of a pair. -/
def link? (requests : List Request) (vehicles : List VehicleEntry) (offers : List Offer)
    (pair : Nat × Nat) : Option Link :=
  match requests[pair.1]?, vehicles[pair.2]?,
    offers.find? fun o => o.candidate = ⟨pair.1, pair.2⟩ with
  | some request, some vehicle, some offer => some ⟨request, vehicle, offer.pickup⟩
  | _, _, _ => none

omit distinctRequests distinctVehicles in
lemma pairing?_eq {offers : List Offer} {pair : Nat × Nat} :
    pairing? requests vehicles offers pair = (link? requests vehicles offers pair).map Link.pairing := by
  unfold pairing? link?
  cases requests[pair.1]? with
  | none => rfl
  | some request =>
    cases vehicles[pair.2]? with
    | none => rfl
    | some vehicle => cases offers.find? fun o => o.candidate = ⟨pair.1, pair.2⟩ <;> rfl

/-- A pair with an entry has the link of that entry. -/
lemma link?_of_entryOf? {pair : Nat × Nat} {e : Matching.Entry}
    (found : Matching.entryOf? (entries settings resolution router requests vehicles) pair = some e) :
    ∃ l, link? requests vehicles (offers settings resolution router requests vehicles) pair = some l ∧
      Linked settings resolution router requests vehicles l ∧
      l.entry settings requests vehicles = e := by
  obtain ⟨member, first, second⟩ := Matching.of_entryAt? found
  obtain ⟨o, offered, rfl⟩ := mem_entries.mp member
  have candidate : o.candidate = ⟨pair.1, pair.2⟩ := by rw [← first, ← second]; rfl
  obtain ⟨l, row, column, near, route, own⟩ := mem_offers.mp offered
  have chosen : (offers settings resolution router requests vehicles).find?
      (fun o => o.candidate = ⟨pair.1, pair.2⟩) = some o := by
    have some_ : ((offers settings resolution router requests vehicles).find?
        fun o => o.candidate = ⟨pair.1, pair.2⟩).isSome := by
      rw [List.find?_isSome]
      exact ⟨o, offered, decide_eq_true candidate⟩
    obtain ⟨o', found'⟩ := Option.isSome_iff_exists.mp some_
    have same : o'.candidate = ⟨pair.1, pair.2⟩ := by simpa using List.find?_some found'
    rw [found', offer_unique (List.mem_of_find?_eq_some found') offered (same.trans candidate.symm)]
  refine ⟨l, ?_, ⟨⟨o.candidate, row, column, near⟩, route⟩, ?_⟩
  · rw [candidate] at row column
    unfold link?
    rw [row, column, chosen, own]
  · rw [entry_eq distinctRequests distinctVehicles row column, own]
    rfl

/-- The links that a cycle chooses. -/
def chosenLinks [Matching.Solver] (settings : Settings) (resolution : Resolution) (router : Router)
    (requests : List Request) (vehicles : List VehicleEntry) : List Link :=
  let offers := offers settings resolution router requests vehicles
  (Matching.solve requests.length vehicles.length (offers.map Offer.edge)).filterMap
    (link? requests vehicles offers)

/-- What a cycle chooses is a best matching of the graph. -/
lemma chosenLinks_best [Matching.Solver] [Matching.LawfulSolver] :
    (graph settings resolution router requests vehicles).IsBest
    (chosenLinks settings resolution router requests vehicles) := by
  obtain ⟨best, some_⟩ := Matching.solve_best requests.length vehicles.length
    ((offers settings resolution router requests vehicles).map Offer.edge)
  refine (embeds_entry distinctRequests distinctVehicles).isBest ?_ ?_
  · intro l member
    obtain ⟨pair, listed, found⟩ := List.mem_filterMap.mp member
    obtain ⟨e, entry⟩ := Option.isSome_iff_exists.mp (some_ pair listed)
    obtain ⟨l', found', linked, _⟩ := link?_of_entryOf? distinctRequests distinctVehicles entry
    rw [Option.some.inj (found.symm.trans found')]
    exact linked
  · unfold chosenLinks
    rw [List.map_filterMap]
    refine (List.filterMap_congr fun pair listed => ?_) ▸ best
    obtain ⟨e, entry⟩ := Option.isSome_iff_exists.mp (some_ pair listed)
    obtain ⟨l, found, _, same⟩ := link?_of_entryOf? distinctRequests distinctVehicles entry
    rw [found, Option.map_some, same]
    exact entry

/-- Every pair has a link. -/
lemma length_chosenLinks [Matching.Solver] [Matching.LawfulSolver] :
    (chosenLinks settings resolution router requests vehicles).length =
    (Matching.solve requests.length vehicles.length
      ((offers settings resolution router requests vehicles).map Offer.edge)).length := by
  obtain ⟨_, some_⟩ := Matching.solve_best requests.length vehicles.length
    ((offers settings resolution router requests vehicles).map Offer.edge)
  apply List.filterMap_length_eq_length.mpr
  intro pair listed
  obtain ⟨e, entry⟩ := Option.isSome_iff_exists.mp (some_ pair listed)
  obtain ⟨l, found, _⟩ := link?_of_entryOf? distinctRequests distinctVehicles entry
  exact Option.isSome_iff_exists.mpr ⟨l, found⟩

end Distinct

end Batch

/-! ## Opening -/

namespace Session

variable {φ : Type} [Fleet φ] {s s' : Session φ} {now : Time} {p : Pairing} {placement : Placement}

/-- What has been told in a cycle of confirmations that were opened. -/
def openings (s : Session φ) : List ConfirmationEvent := s.events.filter fun e => e.stage = .created

/-- What a session tells when it opens the confirmation of a pairing. -/
def openingOf (now : Time) (request : Request) (vehicle : VehicleId) : ConfirmationEvent :=
  ⟨now, request.id, request.passenger, vehicle, .created⟩

lemma consume_openings {c : Confirmation} (held : s.state.registry.Holds c) :
    (s.consume now c.id).2.openings = s.openings := by
  have closed : (s.events ++ [c.completedEvent now]).filter (fun e => e.stage = .created) =
      s.events.filter fun e => e.stage = .created := by
    rw [List.filter_append]
    exact List.append_nil _
  cases outcome : s.outcome now c with
  | ok fleet => rw [consume_of_ok held outcome]; exact closed
  | error refusal => rw [consume_of_error held outcome]; exact closed

/-- A pairing of a queued request opens one confirmation. -/
lemma openConfirmation_opens {request : Request}
    (queued : s.state.queue.get? p.request = some request)
    (made : s.openConfirmation now p = .ok (placement, s')) :
    s'.openings = s.openings ++ [openingOf now request p.vehicle] := by
  rcases openConfirmation_eq_ok made with ⟨absent, _⟩ | ⟨request', c, queued', added, outcome⟩
  · rw [absent] at queued
    cases queued
  · obtain rfl := Option.some.inj (queued.symm.trans queued')
    obtain ⟨rfl, _, _, _⟩ := Registry.add_eq_ok added
    set c := s.state.registry.newConfirmation request p.vehicle p.pickup now
    have told : (s.opened c.createdEvent (s.state.registry.register c)).openings =
        s.openings ++ [openingOf now request p.vehicle] := List.filter_append _ _
    rcases outcome with ⟨_, _, rfl⟩ | ⟨_, consumed⟩
    · exact told
    · obtain rfl : s' = _ := congrArg Prod.snd consumed
      rw [consume_openings (holds_opened added), told]

end Session

namespace Batch

variable {φ : Type} [Fleet φ] {s : Session φ} {now : Time} {snapshot : Snapshot}

open Session

/-- Links of queued requests that are free and apart are opened one after the other. So a property of links
and of the sessions before and after them holds if it holds of no link and is kept by one more in front. -/
lemma openAll_induction (P : List Link → Session φ → Session φ → Prop) (nil : ∀ s, P [] s s)
    (cons : ∀ {l rest s next final placement}, s.state.Sound →
      s.state.queue.get? l.request.id = some l.request →
      s.openConfirmation now l.pairing = .ok (placement, next) → P rest next final → P (l :: rest) s final)
    {links : List Link} (sound : s.state.Sound) (free : ∀ l ∈ links, l.pairing.Free s.state.registry)
    (apart : links.Pairwise fun l l' => l.request.id ≠ l'.request.id ∧ l.vehicle.id ≠ l'.vehicle.id)
    (queued : ∀ l ∈ links, s.state.queue.get? l.request.id = some l.request) :
    P links s (openAll now (links.map Link.pairing) s).session := by
  induction links generalizing s with
  | nil => exact nil s
  | cons l rest ih =>
    obtain ⟨others, apart⟩ := List.pairwise_cons.mp apart
    obtain ⟨_, next, made⟩ := openConfirmation_of_free now sound (free l List.mem_cons_self)
    have sound' := Steps.sound (openConfirmation_steps made) sound
    rw [List.map_cons, openAll, made]
    refine cons sound (queued l List.mem_cons_self) made (ih sound' ?_ apart ?_)
    · intro l' member
      have ends := others l' member
      exact (free l' (List.mem_cons_of_mem l member)).openConfirmation ⟨ends.1, ends.2⟩ sound sound' made
    · intro l' member
      rw [openConfirmation_queue (others l' member).1.symm sound made]
      exact queued l' (List.mem_cons_of_mem l member)

/-- Nothing else is opened. -/
lemma openAll_opens {links : List Link} (sound : s.state.Sound)
    (free : ∀ l ∈ links, l.pairing.Free s.state.registry)
    (apart : links.Pairwise fun l l' => l.request.id ≠ l'.request.id ∧ l.vehicle.id ≠ l'.vehicle.id)
    (queued : ∀ l ∈ links, s.state.queue.get? l.request.id = some l.request) :
    let final := (openAll now (links.map Link.pairing) s).session
    final.openings = s.openings ++ links.map (fun l => openingOf now l.request l.vehicle.id) ∧
      ∀ c, final.state.registry.Holds c → s.state.registry.Holds c ∨
        ∃ l ∈ links, c.request = l.request.id ∧ c.vehicle = l.vehicle.id ∧ c.pickup = l.pickup := by
  refine openAll_induction (fun links s final =>
    final.openings = s.openings ++ links.map (fun l => openingOf now l.request l.vehicle.id) ∧
      ∀ c, final.state.registry.Holds c → s.state.registry.Holds c ∨
        ∃ l ∈ links, c.request = l.request.id ∧ c.vehicle = l.vehicle.id ∧ c.pickup = l.pickup)
    ?_ ?_ sound free apart queued
  · intro s
    exact ⟨(List.append_nil _).symm, fun c held => .inl held⟩
  · intro l rest s next final placement sound queued made later
    obtain ⟨openings, held⟩ := later
    constructor
    · rw [openings, openConfirmation_opens queued made, List.append_assoc]
      rfl
    · intro c later
      rcases held c later with now_ | ⟨l', member, own⟩
      · rcases holds_openConfirmation sound made now_ with own | before
        · exact .inr ⟨l, List.mem_cons_self, own⟩
        · exact .inl before
      · exact .inr ⟨l', List.mem_cons_of_mem l member, own⟩

/-- With requests to plan, the strategy opens the links that it chooses and counts the other requests as
unmatched. -/
lemma schedule_eq [Matching.Solver] [Matching.LawfulSolver] (settings : Settings) (resolution : Resolution)
    (ctx : CycleContext) (sound : s.state.Sound)
    (distinctRequests : (snapshot.requests.map RequestEntry.id).Nodup)
    (distinctVehicles : (snapshot.vehicles.map VehicleEntry.id).Nodup)
    (some_ : (plannableRequests s.state snapshot ctx.now).isEmpty = false) :
    let requests := plannableRequests s.state snapshot ctx.now
    let chosen := chosenLinks settings resolution ctx.router requests (freeVehicles s.state snapshot)
    ∃ astray, schedule settings resolution ctx snapshot s = openAll ctx.now (chosen.map Link.pairing)
      { s.note astray with report := s.report.addUnmatched (requests.length - chosen.length) } := by
  intro requests chosen
  have count : chosen.length = (Matching.solve requests.length (freeVehicles s.state snapshot).length
      ((offers settings resolution ctx.router requests (freeVehicles s.state snapshot)).map
        Offer.edge)).length :=
    length_chosenLinks (nodup_plannableRequests sound distinctRequests) (nodup_freeVehicles distinctVehicles)
  have pairings : chosen.map Link.pairing = (Matching.solve requests.length
      (freeVehicles s.state snapshot).length
      ((offers settings resolution ctx.router requests (freeVehicles s.state snapshot)).map
        Offer.edge)).filterMap (pairing? requests (freeVehicles s.state snapshot)
          (offers settings resolution ctx.router requests (freeVehicles s.state snapshot))) := by
    refine List.map_filterMap.trans ?_
    exact List.filterMap_congr fun pair _ => pairing?_eq.symm
  rw [count, pairings]
  exact ⟨_, if_neg (by rw [some_]; decide)⟩

/-- In a sound state, what the strategy opens is a best matching of the graph. -/
lemma schedule_best [Matching.Solver] [Matching.LawfulSolver] (settings : Settings) (resolution : Resolution)
    (ctx : CycleContext) (sound : s.state.Sound)
    (distinctRequests : (snapshot.requests.map RequestEntry.id).Nodup)
    (distinctVehicles : (snapshot.vehicles.map VehicleEntry.id).Nodup) :
    let requests := plannableRequests s.state snapshot ctx.now
    let vehicles := freeVehicles s.state snapshot
    let result := schedule settings resolution ctx snapshot s
    ∃ chosen, (graph settings resolution ctx.router requests vehicles).IsBest chosen ∧
      result.defect = none ∧
      result.session.openings =
        s.openings ++ chosen.map (fun l => openingOf ctx.now l.request l.vehicle.id) ∧
      ∀ c, result.session.state.registry.Holds c → s.state.registry.Holds c ∨
        ∃ l ∈ chosen, c.request = l.request.id ∧ c.vehicle = l.vehicle.id ∧ c.pickup = l.pickup := by
  intro requests vehicles result
  let chosen := chosenLinks settings resolution ctx.router requests vehicles
  have best : (graph settings resolution ctx.router requests vehicles).IsBest chosen :=
    chosenLinks_best (nodup_plannableRequests sound distinctRequests) (nodup_freeVehicles distinctVehicles)
  refine ⟨chosen, best, schedule_defect sound distinctRequests distinctVehicles, ?_⟩
  by_cases none_ : requests.isEmpty
  · -- without a request there is nothing to link
    have nothing : chosen = [] := by
      apply List.eq_nil_iff_forall_not_mem.mpr
      intro l member
      obtain ⟨c, row, _⟩ := (best.edges l member).near
      have listed : l.request ∈ requests := List.mem_of_getElem? row
      rw [List.isEmpty_iff.mp none_] at listed
      cases listed
    have idle : result = { session := s } := if_pos none_
    rw [idle, nothing]
    exact ⟨(List.append_nil _).symm, fun c held => .inl held⟩
  · obtain ⟨astray, same⟩ := schedule_eq settings resolution ctx sound distinctRequests distinctVehicles
      (Bool.not_eq_true _ ▸ none_)
    obtain ⟨s₀, opened, state, openings⟩ : ∃ s₀ : Session φ,
        result = openAll ctx.now (chosen.map Link.pairing) s₀ ∧ s₀.state = s.state ∧
          s₀.openings = s.openings := ⟨_, same, rfl, rfl⟩
    rw [opened, ← openings, ← state]
    refine openAll_opens (state ▸ sound) ?_ best.apart ?_
    · intro l member
      obtain ⟨c, row, column, _⟩ := (best.edges l member).near
      rw [state]
      exact free_of_mem sound (List.mem_of_getElem? row) (List.mem_of_getElem? column)
    · intro l member
      obtain ⟨c, row, _⟩ := (best.edges l member).near
      rw [state]
      exact queued_of_mem sound (List.mem_of_getElem? row)

end Batch

namespace Dispatcher

open Batch Session

/-- In whatever order requests have been submitted and given up and cycles have been run, whatever fleet
and router each of them had: in the state in which the next cycle makes its pairings, the assignment
strategy opens confirmations for the links of a best matching, each with its route to the pickup, and for
nothing else, whatever lawful solver it asks. The links join the plannable requests of the snapshot with its
free vehicles, where a route connects them and one of them is among those nearest to the other. If there
are no more vehicles or no more requests than the limits for the nearest ones, all that is connected is
linked. Machine words hold what the matrix is filled with as long as they hold the products, as they do
unless there are very many pairs. -/
theorem batch_best [Matching.Solver] [Matching.LawfulSolver] (settings : Settings) (resolution : Resolution)
    (calls : List (Call ScheduledFleet)) (ctx : CycleContext) (fleet : ScheduledFleet) :
    let d := ((fresh settings resolution).serve calls).1
    let s := d.planned ctx.now fleet
    let snapshot := d.view ctx.now fleet
    let requests := plannableRequests s.state snapshot ctx.now
    let vehicles := freeVehicles s.state snapshot
    let graph := Batch.graph settings resolution ctx.router requests vehicles
    let result := Batch.schedule settings resolution ctx snapshot s
    (∃ chosen, graph.IsBest chosen ∧ result.defect = none ∧
      result.session.openings =
        s.openings ++ chosen.map (fun l => openingOf ctx.now l.request l.vehicle.id) ∧
      ∀ c, result.session.state.registry.Holds c → s.state.registry.Holds c ∨
        ∃ l ∈ chosen, c.request = l.request.id ∧ c.vehicle = l.vehicle.id ∧ c.pickup = l.pickup) ∧
    (vehicles.length ≤ settings.nearestVehiclesLimit ∨ requests.length ≤ settings.nearestRequestsLimit →
      ∀ request ∈ requests, ∀ vehicle ∈ vehicles, ∀ pickup,
        ctx.router.route? vehicle.place request.origin vehicle.availableAt = some pickup →
        graph.edge ⟨request, vehicle, pickup⟩) ∧
    let es := Batch.entries settings resolution ctx.router requests vehicles
    let pairs := min requests.length vehicles.length
    (Matching.reward es pairs * (pairs + 1) ≤ Matching.maxWord → Matching.FitsWords es pairs) ∧
      (pairs < Matching.pairsPerWord → Matching.reward es pairs * (pairs + 1) ≤ Matching.maxWord) := by
  have sound : ((fresh settings resolution).serve calls).1.state.Sound := serve_sound (.empty _ _)
  have best := schedule_best settings resolution ctx (planned_sound ctx.now fleet sound)
    (nodup_view_requests ctx.now fleet sound)
    (Snapshot.nodup_vehicles (ScheduledFleet.nodup_vehicleIds _))
  refine ⟨best, ?_, Matching.entries_fit _ _ _ _⟩
  intro few request member vehicle member' pickup connected
  exact edge_of_few member member' connected few

/-- Of two requests one waits on the link of the only vehicle, and no way leads to the other. -/
theorem batch_best_oneVehicle :
    let calls : List (Call ScheduledFleet) :=
      [.submit (.immediate ⟨1⟩ ⟨11⟩ (.onDiagonal 3) (.onDiagonal 4) 0 none),
        .submit (.immediate ⟨2⟩ ⟨12⟩ (.onDiagonal 1) (.onDiagonal 2) 0 none)]
    let router : Router := .ofTable []
    let fleet := ((ScheduledFleet.empty router ⟨120000⟩ ⟨60000⟩).addVehicle ⟨7⟩ (.onDiagonal 1) 0 .never).toOption.getD
      (.empty router ⟨120000⟩ ⟨60000⟩)
    let settings : Settings := { strategy := .assignment }
    let d := ((fresh settings 9).serve calls).1
    let s := d.planned 0 fleet
    let requests := plannableRequests s.state (d.view 0 fleet) 0
    let vehicles := freeVehicles s.state (d.view 0 fleet)
    let result := Batch.schedule settings 9 ⟨0, router⟩ (d.view 0 fleet) s
    (requests.length = 2 ∧ vehicles.length = 1) ∧
      result.session.openings = s.openings ++ [⟨0, ⟨2⟩, ⟨12⟩, ⟨7⟩, .created⟩] ∧
      ∃ chosen, (Batch.graph settings 9 router requests vehicles).IsBest chosen ∧
        chosen.map (fun l => (l.request.id, l.vehicle.id)) = [(⟨2⟩, ⟨7⟩)] ∧
        Matching.FitsWords (Batch.entries settings 9 router requests vehicles) 1 := by
  intro calls router fleet settings d s requests vehicles result
  have counts : requests.length = 2 ∧ vehicles.length = 1 := by decide +kernel
  have opened : result.session.openings = s.openings ++ [⟨0, ⟨2⟩, ⟨12⟩, ⟨7⟩, .created⟩] := by decide +kernel
  obtain ⟨⟨chosen, best, _, openings, _⟩, _, fits, small⟩ :=
    batch_best settings 9 calls ⟨0, router⟩ fleet
  have pairs_ : min requests.length vehicles.length = 1 := by
    rw [counts.1, counts.2]
    rfl
  have alone : chosen.map (fun l => openingOf 0 l.request l.vehicle.id) = [⟨0, ⟨2⟩, ⟨12⟩, ⟨7⟩, .created⟩] :=
    List.append_cancel_left (openings.symm.trans opened)
  obtain ⟨l, rfl, own⟩ := List.map_eq_singleton_iff.mp alone
  obtain ⟨_, request, _, vehicle, _⟩ := ConfirmationEvent.mk.inj own
  refine ⟨counts, opened, [l], best, ?_, pairs_ ▸ fits (small (pairs_ ▸ by decide))⟩
  rw [List.map_singleton, request, vehicle]

end Dispatcher

end RideDispatch

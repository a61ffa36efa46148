import Mathlib.Tactic.Lemma
import RideDispatch.Network.Way
import RideDispatch.Proofs.Table
import RideDispatch.Route.Table

/-!
# Where ways lead

A router `Leads` if each of its routes begins with the link of the place that is left and ends with the link
of the place that is reached. A table does (`Router.leads_ofTable`). So does a network to which links have
been added one by one (`Network.Built`), since it keeps every link under the identity of that link
(`Network.Built.keyed`); the full lattice is one of them (`Network.built_grid`).
-/

namespace RideDispatch

/-- The route begins with one link and ends with another. -/
structure Route.Leads (r : Route) (first last : LinkId) : Prop where
  departs : r.links.head? = some first
  arrives : r.links.getLast? = some last

namespace Router

/-- Every route begins with the link that is left and ends with the link that is reached. -/
def Leads (r : Router) : Prop :=
  ∀ origin target departure route, r.route? origin target departure = some route →
    route.Leads origin.link target.link

variable {r : Router} {origin target : Place} {departure : Time} {route : Route}

lemma leads_ofTable (table : List TravelTime) : (ofTable table).Leads := by
  intro origin target departure route found
  unfold ofTable at found
  simp only at found
  split at found
  · rename_i same
    cases found
    exact ⟨rfl, same ▸ rfl⟩
  · obtain ⟨line, _, rfl⟩ := Option.map_eq_some_iff.mp found
    exact ⟨rfl, rfl⟩

end Router

namespace Network

variable {n n' : Network} {first last : LinkId}

/-- A network that consists of nodes and of links that have been added to them. -/
inductive Built : Network → Prop
  | nodes (columns rows : Nat) (params : NetworkParams) : Built (nodesOnly columns rows params)
  | link {n : Network} (tail head : Nat) : Built n → Built (n.insertLink tail head)

lemma Built.addOneWay (h : n.Built) {tail head : Position} {id : LinkId}
    (added : n.addOneWay tail head = .ok (id, n')) : n'.Built := by
  unfold Network.addOneWay at added
  split at added
  · cases added
    exact h.link _ _
  · cases added

lemma Built.addDouble (h : n.Built) {a b : Position} {ids : LinkId × LinkId}
    (added : n.addDouble a b = .ok (ids, n')) : n'.Built := by
  unfold Network.addDouble at added
  cases forth : n.addOneWay a b with
  | error => simp [forth, bind, Except.bind] at added
  | ok next =>
    rw [forth] at added
    cases back : next.2.addOneWay b a with
    | error => simp [back, bind, Except.bind] at added
    | ok last =>
      simp only [bind, Except.bind, back] at added
      cases added
      exact (h.addOneWay forth).addOneWay back

/-- The full lattice is built. -/
lemma built_grid (columns rows : Nat) (params : NetworkParams) : (grid columns rows params).Built := by
  have more : ∀ (pairs : List (Position × Position)) (n : Network), n.Built →
      (pairs.foldl (fun n pair => n.insertDouble pair.1 pair.2) n).Built := by
    intro pairs
    induction pairs with
    | nil => exact fun n h => h
    | cons pair rest ih => exact fun n h => ih _ ((h.link _ _).link _ _)
  exact more _ _ (.nodes columns rows params)

/-- Every link is kept under its own identity. -/
def Keyed (n : Network) : Prop := ∀ (id : LinkId) (l : Link), n.links[id]? = some l → l.id = id

lemma Keyed.insertLink (h : n.Keyed) (tail head : Nat) : (n.insertLink tail head).Keyed := by
  intro id l found
  replace found : (n.links.insert (n.newLink tail head).id (n.newLink tail head))[id]? = some l := found
  rw [Table.getElem?_insert] at found
  split at found
  · rename_i same
    cases found
    exact same
  · exact h id l found

lemma Built.keyed (h : n.Built) : n.Keyed := by
  induction h with
  | nodes columns rows params =>
    intro id l found
    simp [nodesOnly] at found
  | link tail head _ ih => exact ih.insertLink tail head

end Network

/-- The way between two links of a network that keeps its links under their identities begins with the one
and ends with the other. -/
lemma WayTable.leads_way? {t : WayTable} {first last : LinkId} {way : Way} (keyed : t.network.Keyed)
    (found : t.way? first last = some way) (departure : Time) :
    (way.route departure).Leads first last := by
  unfold way? at found
  split at found
  · rename_i a b left right
    split at found
    · rename_i same
      cases found
      exact ⟨rfl, same ▸ rfl⟩
    · split at found
      · rename_i searched
        unfold Network.wayBy? at searched
        split at searched
        · cases searched
          obtain ⟨ids, _, rfl⟩ := Option.map_eq_some_iff.mp found
          rw [← keyed first a left, ← keyed last b right]
          refine ⟨rfl, ?_⟩
          show (a.id :: (ids ++ [b.id])).getLast? = some b.id
          rw [← List.cons_append, List.getLast?_concat]
        · split at searched
          · cases searched
          · cases searched
            cases found
      · cases found
  · cases found

/-- A router that answers from a table or from a built network. -/
inductive Router.Provided : Router → Prop
  | table (table : List TravelTime) : Provided (.ofTable table)
  | network {n : Network} : n.Built → Provided (WayTable.ofNetwork n).router

lemma Router.Provided.leads {r : Router} (h : r.Provided) : r.Leads := by
  cases h with
  | table table => exact leads_ofTable table
  | @network n built =>
    intro origin target departure route found
    obtain ⟨way, searched, rfl⟩ := Option.map_eq_some_iff.mp found
    exact WayTable.leads_way? (t := .ofNetwork n) built.keyed searched departure

end RideDispatch

import RideDispatch.Proofs.Desk
import RideDispatch.Proofs.Likeness

/-!
# The order of submissions

Requests that are submitted one after the other might as well have been submitted in another order
(`Desk.submission_order`). The queue is then the same, but the index may gather the requests of a cell in
another order. That is all in which two desks can differ that are `Alike`, and it shows nowhere: what the
index is asked for are the nearest requests, which do not depend on it (`ZoneMap.Alike.nearest`). So two
desks that are alike give the same replies, and stay alike.
-/

namespace RideDispatch

namespace Desk

def reindex {φ : Type} (desk : Desk φ) (requests : ZoneMap RequestId) : Desk φ :=
  { desk with dispatcher := desk.dispatcher.reindex requests }

section Parts

variable {φ : Type} {desk desk' desk'' : Desk φ}

/-- The index of the requests is tidy. -/
def Tidy (desk : Desk φ) : Prop := desk.dispatcher.state.zones.requests.Tidy

/-- Two desks that differ at most in how the requests are gathered. -/
def Alike (desk desk' : Desk φ) : Prop :=
  ∃ z, desk.dispatcher.state.zones.requests.Alike z ∧ desk' = desk.reindex z

namespace Alike

lemma refl (h : desk.Tidy) : desk.Alike desk := ⟨_, .refl h, rfl⟩

lemma trans (first : desk.Alike desk') (second : desk'.Alike desk'') : desk.Alike desk'' := by
  obtain ⟨z, alike, rfl⟩ := first
  obtain ⟨z', alike', rfl⟩ := second
  exact ⟨z', alike.trans alike', rfl⟩

lemma tidy (h : desk.Alike desk') : desk.Tidy := by
  obtain ⟨z, alike, _⟩ := h
  exact alike.left

end Alike

end Parts

variable {φ : Type} [Fleet φ] {desk desk' : Desk φ} {order : Order φ} {orders : List (Order φ)}

/-- Desks that are alike answer alike. -/
lemma Alike.answer (h : desk.Alike desk') (order : Order φ) :
    (desk'.answer order).2 = (desk.answer order).2 ∧ (desk.answer order).1.Alike (desk'.answer order).1 := by
  obtain ⟨z, alike, rfl⟩ := h
  have similar : Similar Eq desk (desk.reindex z) := ⟨⟨z, alike, rfl⟩, rfl⟩
  obtain ⟨reply, ⟨z', alike', same⟩, fleet⟩ :=
    similar.answer order (fun ctx _ => Fleet.similar_eq ctx.now) (fun change _ _ _ => congrArg change)
  refine ⟨reply, z', alike', ?_⟩
  generalize (desk.reindex z).answer order = r at same fleet
  obtain ⟨⟨d, g⟩, _⟩ := r
  subst same fleet
  rfl

lemma Alike.serve (h : desk.Alike desk') (orders : List (Order φ)) :
    (desk'.serve orders).2 = (desk.serve orders).2 ∧ (desk.serve orders).1.Alike (desk'.serve orders).1 := by
  induction orders generalizing desk desk' with
  | nil => exact ⟨rfl, h⟩
  | cons order rest ih =>
    obtain ⟨reply, next⟩ := h.answer order
    obtain ⟨replies, final⟩ := ih next
    refine ⟨?_, final⟩
    show (desk'.answer order).2 :: _ = (desk.answer order).2 :: _
    rw [reply]
    exact congrArg _ replies

/-! ## Submissions -/

lemma Tidy.fresh {φ : Type} (settings : Settings) (resolution : Resolution) (fleet : φ) :
    (Desk.fresh settings resolution fleet).Tidy := ZoneMap.Tidy.empty

lemma Tidy.serve (h : desk.Tidy) (orders : List (Order φ)) : (desk.serve orders).1.Tidy :=
  ((Alike.refl h).serve orders).2.tidy

/-- Two requests might as well have been submitted in the other order. -/
lemma submit_comm (h : desk.Tidy) {first second : Request} (ne : first.id ≠ second.id) :
    (desk.serve [.submit first, .submit second]).1.Alike (desk.serve [.submit second, .submit first]).1 := by
  refine ⟨_, ZoneMap.Alike.insert_comm h ne, ?_⟩
  have queue : (desk.dispatcher.state.queue.insert second).insert first =
      (desk.dispatcher.state.queue.insert first).insert second :=
    congrArg RequestQueue.mk (Table.insert_comm ne.symm)
  simp only [serve, answer, Dispatcher.submit]
  rw [queue]
  rfl

/-- So might several. -/
lemma submit_perm (h : desk.Tidy) {first second : List Request} (perm : first.Perm second)
    (distinct : (first.map Request.id).Nodup) :
    (desk.serve (first.map .submit)).1.Alike (desk.serve (second.map .submit)).1 := by
  induction perm generalizing desk with
  | nil => exact .refl h
  | cons request _ ih =>
    apply ih (h.serve [.submit request])
    exact (List.nodup_cons.mp distinct).2
  | swap second first rest =>
    have ne : first.id ≠ second.id := by
      intro same
      simp [same] at distinct
    exact ((submit_comm h ne).serve (rest.map .submit)).2
  | trans perm _ ih ih' =>
    exact (ih h distinct).trans (ih' h ((perm.map Request.id).nodup_iff.mp distinct))

/-- Whatever a desk has been asked to do before: if some requests with different identities are submitted in
one order or in another, everything that the desk is asked to do from then on has the same replies, the
reports of the cycles and all that the world is told among them, and the fleet, the queue and the
confirmations come to be the same. -/
theorem submission_order (settings : Settings) (resolution : Resolution) (fleet : φ)
    (earlier : List (Order φ)) (first second : List Request) (later : List (Order φ))
    (perm : first.Perm second) (distinct : (first.map Request.id).Nodup) :
    let desk := ((fresh settings resolution fleet).serve earlier).1
    let one := (desk.serve (first.map .submit)).1.serve later
    let other := (desk.serve (second.map .submit)).1.serve later
    other.2 = one.2 ∧ other.1.fleet = one.1.fleet ∧
      other.1.dispatcher.state.queue = one.1.dispatcher.state.queue ∧
      other.1.dispatcher.state.registry = one.1.dispatcher.state.registry := by
  intro desk one other
  have tidy : desk.Tidy := (Tidy.fresh settings resolution fleet).serve earlier
  obtain ⟨replies, z, _, same⟩ := (submit_perm tidy perm distinct).serve later
  refine ⟨replies, ?_⟩
  replace same : other.1 = one.1.reindex z := same
  rw [same]
  exact ⟨rfl, rfl, rfl⟩

/-- Two requests for one vehicle. -/
theorem submission_order_twoRequests :
    let fleet : ScheduledFleet := .empty Service.steadyRouter ⟨120⟩ ⟨60⟩
    let desk := ((fresh {} 9 fleet).serve oneRequest).1
    let near : Request := .immediate ⟨2⟩ ⟨12⟩ (.onDiagonal 4) (.onDiagonal 5) 0 none
    let far : Request := .immediate ⟨3⟩ ⟨13⟩ (.onDiagonal 6) (.onDiagonal 7) 0 none
    let later :=
      [.cycle ⟨0, Service.steadyRouter⟩, .withdraw ⟨3⟩ ⟨500⟩, .cycle ⟨⟨9000⟩, Service.steadyRouter⟩]
    [near, far].Perm [far, near] ∧ ([near, far].map Request.id).Nodup ∧
      ((desk.serve [.submit far, .submit near]).1.serve later).2 =
        ((desk.serve [.submit near, .submit far]).1.serve later).2 := by
  intro fleet desk near far later
  have perm : [near, far].Perm [far, near] := .swap _ _ _
  have distinct : ([near, far].map Request.id).Nodup := by decide
  exact ⟨perm, distinct, (submission_order {} 9 fleet oneRequest _ _ later perm distinct).1⟩

end Desk

end RideDispatch

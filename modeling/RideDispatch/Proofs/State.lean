import RideDispatch.Dispatch.State
import RideDispatch.Proofs.Registry
import RideDispatch.Proofs.Zone

/-!
# Sound states

The state of a dispatcher is `Sound` if its registry is and every queued request is queued under its
own identity. Counting an attempt changes nothing else about a request: after any number of counts the
entry of the queue is `Request.tried` as often as its identity was counted (`get?_countAttempts`).
-/

namespace RideDispatch

/-- The request after some more attempts to plan it. -/
def Request.tried (r : Request) (n : Nat) : Request := { r with attempts := r.attempts + n }

namespace RequestQueue

variable {q : RequestQueue} {r : Request} {id : RequestId}

/-- Every request is queued under its own identity. -/
def Keyed (q : RequestQueue) : Prop := ∀ id r, q.get? id = some r → r.id = id

lemma get?_insert : (q.insert r).get? id = if r.id = id then some r else q.get? id :=
  Table.getElem?_insert

lemma get?_erase {gone : RequestId} :
    (q.erase gone).get? id = if gone = id then none else q.get? id :=
  Table.getElem?_erase

lemma get?_of_erase {gone : RequestId} (found : (q.erase gone).get? id = some r) :
    q.get? id = some r := by
  rw [get?_erase] at found
  split at found
  · cases found
  · exact found

lemma contains_eq_isSome : q.contains id = (q.get? id).isSome :=
  Table.contains_eq_isSome

lemma nodup_ids : q.ids.Nodup :=
  Std.ExtTreeMap.nodup_keys

lemma get?_countAttempts {ids : List RequestId} :
    (ids.foldl countAttempt q).get? id = (q.get? id).map fun r => r.tried (ids.count id) := by
  induction ids generalizing q with
  | nil => simp [Request.tried]
  | cons first rest ih =>
    have once : (q.countAttempt first).get? id =
        if first = id then (q.get? id).map fun r => r.tried 1 else q.get? id :=
      Table.getElem?_modify
    rw [List.foldl_cons, ih, once, List.count_cons]
    by_cases e : first = id
    · simp [e, Request.tried, Function.comp_def, Nat.add_comm, Nat.add_assoc]
    · simp [e]

lemma Keyed.insert (h : q.Keyed) : (q.insert r).Keyed := by
  intro id r' found
  rw [get?_insert] at found
  split at found
  · rename_i e
    rw [← Option.some.inj found, e]
  · exact h id r' found

lemma Keyed.erase (h : q.Keyed) {gone : RequestId} : (q.erase gone).Keyed := by
  intro id r found
  exact h id r (get?_of_erase found)

lemma Keyed.countAttempts (h : q.Keyed) {ids : List RequestId} :
    (ids.foldl countAttempt q).Keyed := by
  intro id r found
  rw [get?_countAttempts] at found
  obtain ⟨r₀, before, rfl⟩ := Option.map_eq_some_iff.mp found
  exact h id r₀ before

end RequestQueue

namespace DispatchState

variable {s : DispatchState} {request : RequestId} {now : Time}

/-- The registry is sound and requests are queued under their identities. -/
structure Sound (s : DispatchState) : Prop where
  registry : s.registry.Sound
  queue : s.queue.Keyed

lemma Sound.empty (delay : Time) (resolution : Resolution) :
    (DispatchState.empty delay resolution).Sound where
  registry := .empty delay
  queue := by
    intro id r found
    simp [DispatchState.empty, RequestQueue.empty, RequestQueue.get?] at found

lemma isPlannable_iff :
    s.isPlannable request now = true ↔ s.registry.isWaitingRequest request = false ∧
      ∃ r, s.queue.get? request = some r ∧ r.isExpired now = false := by
  unfold isPlannable
  cases found : s.queue.get? request <;> simp

end DispatchState

end RideDispatch

import Mathlib.Tactic.Lemma
import RideDispatch.Network.Cache

/-!
# Remembered answers

A network that remembers its answers is asked in turn to add links and to find routes (`RoadCall`). The answers
that it remembers are those of its present links (`CachedNetwork.Coherent`): whatever it forgets leaves fewer of
them, and an added link leaves none. So its replies are the replies of a network that searches anew for each
route (`transcript_cached`).
-/

namespace RideDispatch

/-- What can be asked of a road network. -/
inductive RoadCall where
  | oneWay (tail head : Position)
  | double (a b : Position)
  | route (origin target : Place) (departure : Time)

/-- What a road network replies. -/
inductive RoadReply where
  | added (id : LinkId)
  | addedBoth (forth back : LinkId)
  | found (route : Option Route)

/-- The reply of a network that searches for each way anew. -/
def Network.reply (n : Network) : RoadCall → Except OffLattice (RoadReply × Network)
  | .oneWay tail head => (n.addOneWay tail head).map fun (id, n) => (.added id, n)
  | .double a b => (n.addDouble a b).map fun (ids, n) => (.addedBoth ids.1 ids.2, n)
  | .route origin target departure =>
    (n.way? origin.link target.link).map fun way => (.found (way.map fun way => way.route departure), n)

/-- The reply of a network that remembers its answers. -/
def CachedNetwork.reply (c : CachedNetwork) : RoadCall → Except OffLattice (RoadReply × CachedNetwork)
  | .oneWay tail head => (c.addOneWay tail head).map fun (id, c) => (.added id, c)
  | .double a b => (c.addDouble a b).map fun (ids, c) => (.addedBoth ids.1 ids.2, c)
  | .route origin target departure =>
    (c.route? origin target departure).map fun (route, c) => (.found route, c)

/-- The replies to some calls, one after the other up to the first fault, and what the calls lead to. -/
def transcript {σ : Type} (reply : σ → RoadCall → Except OffLattice (RoadReply × σ)) :
    σ → List RoadCall → List RoadReply × Except OffLattice σ
  | s, [] => ([], .ok s)
  | s, call :: calls =>
    match reply s call with
    | .error fault => ([], .error fault)
    | .ok (first, s) =>
      let (rest, last) := transcript reply s calls
      (first :: rest, last)

namespace CachedNetwork

variable {c : CachedNetwork} {q : WayQuery} {way : Option Way}

/-- Every answer that is remembered is the one of the present links. -/
def Coherent (c : CachedNetwork) : Prop :=
  ∀ entry ∈ c.answers, c.network.way? entry.1.first entry.1.last = .ok entry.2

lemma coherent_fresh (n : Network) : Coherent { network := n } := List.forall_mem_nil _

lemma Coherent.answer? (h : c.Coherent) (known : c.answer? q = some way) :
    c.network.way? q.first q.last = .ok way := by
  obtain ⟨entry, found, rfl⟩ := Option.map_eq_some_iff.mp known
  obtain rfl : entry.1 = q := by simpa using List.find?_some found
  exact h entry (List.mem_of_find?_eq_some found)

/-- Remembering a right answer keeps all of them right, also where others are forgotten for it. -/
lemma Coherent.remember (h : c.Coherent) (right : c.network.way? q.first q.last = .ok way) :
    (c.remember q way).Coherent := by
  intro entry kept
  rcases List.mem_cons.mp (List.mem_of_mem_take kept) with rfl | other
  · exact right
  · exact h entry (List.mem_filter.mp other).1

/-- Whether an answer is remembered or not makes no difference. -/
lemma Coherent.way? (h : c.Coherent) (q : WayQuery) :
    c.way? q = (c.network.way? q.first q.last).map fun way => (way, c.remember q way) := by
  unfold CachedNetwork.way?
  cases known : c.answer? q with
  | none => rfl
  | some way =>
    rw [h.answer? known]
    rfl

lemma Coherent.route? (h : c.Coherent) (origin target : Place) (departure : Time) :
    c.route? origin target departure =
      (c.network.way? origin.link target.link).map fun way =>
        (way.map fun way => way.route departure, c.remember ⟨origin.link, target.link⟩ way) := by
  unfold CachedNetwork.route?
  rw [h.way?]
  cases c.network.way? origin.link target.link <;> rfl

/-- Each call is replied to as by a network that remembers nothing, and leaves the answers coherent. -/
lemma Coherent.reply (h : c.Coherent) (call : RoadCall) :
    (∃ fault, c.reply call = .error fault ∧ c.network.reply call = .error fault) ∨
    ∃ reply c', c.reply call = .ok (reply, c') ∧ c.network.reply call = .ok (reply, c'.network) ∧
      c'.Coherent := by
  cases call with
  | oneWay tail head =>
    simp only [CachedNetwork.reply, Network.reply, addOneWay]
    cases c.network.addOneWay tail head with
    | error fault => exact .inl ⟨fault, rfl, rfl⟩
    | ok next => exact .inr ⟨_, _, rfl, rfl, coherent_fresh next.2⟩
  | double a b =>
    simp only [CachedNetwork.reply, Network.reply, addDouble]
    cases c.network.addDouble a b with
    | error fault => exact .inl ⟨fault, rfl, rfl⟩
    | ok next => exact .inr ⟨_, _, rfl, rfl, coherent_fresh next.2⟩
  | route origin target departure =>
    simp only [CachedNetwork.reply, Network.reply, h.route?]
    cases found : c.network.way? origin.link target.link with
    | error fault => exact .inl ⟨fault, rfl, rfl⟩
    | ok way => exact .inr ⟨_, _, rfl, rfl, h.remember found⟩

/-- All calls are replied to as by a network that remembers nothing. -/
lemma Coherent.same_transcript (h : c.Coherent) (calls : List RoadCall) :
    (transcript CachedNetwork.reply c calls).1 = (transcript Network.reply c.network calls).1 ∧
    (transcript CachedNetwork.reply c calls).2.map CachedNetwork.network =
      (transcript Network.reply c.network calls).2 := by
  induction calls generalizing c with
  | nil => exact ⟨rfl, rfl⟩
  | cons call calls ih =>
    unfold transcript
    obtain ⟨fault, failed, failed'⟩ | ⟨reply, c', replied, replied', coherent⟩ := h.reply call
    · rw [failed, failed']
      exact ⟨rfl, rfl⟩
    · rw [replied, replied']
      obtain ⟨replies, last⟩ := ih coherent
      exact ⟨congrArg (reply :: ·) replies, last⟩

end CachedNetwork

/-- A network that remembers its answers replies to all calls as one does that searches for each way anew, and the
calls lead to the same links or to the same fault. -/
theorem transcript_cached (n : Network) (calls : List RoadCall) :
    (transcript CachedNetwork.reply { network := n } calls).1 = (transcript Network.reply n calls).1 ∧
    (transcript CachedNetwork.reply { network := n } calls).2.map CachedNetwork.network =
      (transcript Network.reply n calls).2 :=
  (CachedNetwork.coherent_fresh n).same_transcript calls

end RideDispatch

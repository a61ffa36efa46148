import Mathlib.Data.List.Nodup
import RideDispatch.Proofs.Agenda
import RideDispatch.Proofs.Schedule

/-!
# The delivery of events

A clock that is used puts events on record as they are scheduled and as they are taken (`Clock.Used`), in whatever
order that happens. What is outstanding are the events that have been scheduled and have not been taken. They are
the events that the clock still holds, and the most urgent of them is the one that is taken next
(`Clock.Recorded.pop?_iff`). So the events are taken in the order of their times, and those at one time and of one
kind in the order in which they were scheduled (`ScheduledEvent.InTurn`).
-/

namespace RideDispatch

lemma EventKind.rank_inj {a b : EventKind} (same : a.rank = b.rank) : a = b := by
  cases a <;> cases b <;> first | rfl | cases same

namespace ScheduledEvent

variable {a b : ScheduledEvent}

/-- How urgent an event is beside another one. The keys are compared the other way round, since what comes earlier is
more urgent; whom the events concern does not count. -/
def urgency (a b : ScheduledEvent) : Ordering :=
  (compare b.time.ms a.time.ms).then ((compare b.kind.rank a.kind.rank).then (compare b.ticket a.ticket))

/-- The more urgent event is the one that precedes. -/
lemma urgency_eq_gt : a.urgency b = .gt ↔ a.Precedes b := by
  have times : b.time.ms = a.time.ms ↔ a.time = b.time :=
    ⟨fun same => Time.ext (congrArg UInt64.toNat same.symm), fun same => congrArg Time.ms same.symm⟩
  have kinds : b.kind.rank = a.kind.rank ↔ a.kind = b.kind :=
    ⟨fun same => EventKind.rank_inj same.symm, fun same => congrArg EventKind.rank same.symm⟩
  unfold urgency
  rw [Ordering.then_eq_gt, Ordering.then_eq_gt, Std.compare_eq_gt, Std.compare_eq_gt, Std.compare_eq_gt,
    Std.compare_eq_iff_eq, Std.compare_eq_iff_eq, times, kinds]
  rfl

/-- Of two events that were not scheduled as one, one precedes the other. -/
lemma precedes_total (apart : a.ticket ≠ b.ticket) : a.Precedes b ∨ b.Precedes a := by
  unfold Precedes
  rw [Time.lt_iff, Time.lt_iff]
  rcases Nat.lt_trichotomy a.time.toNat b.time.toNat with earlier | sameTime | later
  · exact .inl (.inl earlier)
  · have time := Time.ext sameTime
    rcases Nat.lt_trichotomy a.kind.rank b.kind.rank with before | sameRank | after
    · exact .inl (.inr ⟨time, .inl before⟩)
    · have kind := EventKind.rank_inj sameRank
      rcases Nat.lt_or_gt_of_ne apart with first | second
      · exact .inl (.inr ⟨time, .inr ⟨kind, first⟩⟩)
      · exact .inr (.inr ⟨time.symm, .inr ⟨kind.symm, second⟩⟩)
    · exact .inr (.inr ⟨time.symm, .inl after⟩)
  · exact .inr (.inl later)

/-- Whether an event may be taken before another: it is no later, and at one time and for one kind it was scheduled
first. -/
def InTurn (a b : ScheduledEvent) : Prop :=
  a.time ≤ b.time ∧ (a.time = b.time → a.kind = b.kind → a.ticket < b.ticket)

lemma inTurn_of_not_precedes (apart : a.ticket ≠ b.ticket) (behind : ¬ b.Precedes a) : a.InTurn b := by
  refine ⟨time_le_of_not_precedes behind, fun time kind => ?_⟩
  rcases Nat.lt_or_gt_of_ne apart with first | second
  · exact first
  · exact absurd (.inr ⟨time.symm, .inr ⟨kind.symm, second⟩⟩) behind

end ScheduledEvent

namespace Clock

/-- The clocks that come about as events are scheduled, not in the past or after a delay, and as they are taken, in
whatever order. On record are the events that have been scheduled and those that have been taken; the ticket of an
event is the number of those scheduled before it. -/
inductive Used : Clock → List ScheduledEvent → List ScheduledEvent → Prop where
  | fresh : Used {} [] []
  | schedule {c : Clock} {scheduled taken : List ScheduledEvent} (time : Time) (kind : EventKind)
      (subject : Option EventSubject) :
      Used c scheduled taken → c.now ≤ time →
      Used (c.schedule time kind subject) (scheduled ++ [⟨time, kind, subject, scheduled.length⟩]) taken
  | scheduleIn {c : Clock} {scheduled taken : List ScheduledEvent} (delay : Time) (kind : EventKind)
      (subject : Option EventSubject) :
      Used c scheduled taken →
      Used (c.scheduleIn delay kind subject)
        (scheduled ++ [⟨c.now + delay, kind, subject, scheduled.length⟩]) taken
  | pop {c c' : Clock} {scheduled taken : List ScheduledEvent} {e : ScheduledEvent} :
      Used c scheduled taken → c.pop? = some (e, c') → Used c' scheduled (taken ++ [e])

variable {c c' : Clock} {e : ScheduledEvent} {scheduled taken : List ScheduledEvent} {time : Time}
variable {kind : EventKind} {subject : Option EventSubject}

/-- The events that have been scheduled and have not been taken. -/
def outstanding (scheduled taken : List ScheduledEvent) : List ScheduledEvent := scheduled.filter (· ∉ taken)

/-- What holds of a clock that has been used and of the record of it. -/
structure Recorded (c : Clock) (scheduled taken : List ScheduledEvent) : Prop where
  issued : c.issued = scheduled.length
  tickets : scheduled.map ScheduledEvent.ticket = List.range scheduled.length
  parts : scheduled.Perm (taken ++ c.pending)
  ordered : c.Ordered
  present : c.now = (taken.getLast?.map ScheduledEvent.time).getD 0
  past : ∀ e ∈ taken, e.time ≤ c.now
  sequence : (taken ++ c.pending).Pairwise ScheduledEvent.InTurn

namespace Recorded

lemma fresh : Recorded {} [] [] where
  issued := rfl
  tickets := rfl
  parts := .refl _
  ordered := ⟨.nil, fun _ member => absurd member List.not_mem_nil⟩
  present := rfl
  past := fun _ member => absurd member List.not_mem_nil
  sequence := .nil

/-- No two events on record have the same ticket. -/
lemma nodup_tickets (h : Recorded c scheduled taken) :
    ((taken ++ c.pending).map ScheduledEvent.ticket).Nodup := by
  rw [← (h.parts.map _).nodup_iff, h.tickets]
  exact List.nodup_range

lemma ticket_lt (h : Recorded c scheduled taken) (member : e ∈ taken ++ c.pending) :
    e.ticket < scheduled.length := by
  have listed := List.mem_map_of_mem (f := ScheduledEvent.ticket) (h.parts.mem_iff.mpr member)
  rw [h.tickets] at listed
  exact List.mem_range.mp listed

/-- What is still to come stands in turn. -/
lemma turn (ordered : c.Ordered) (apart : (c.pending.map ScheduledEvent.ticket).Nodup) :
    c.pending.Pairwise ScheduledEvent.InTurn :=
  (ordered.sorted.and (List.pairwise_map.mp apart)).imp fun ⟨behind, apart⟩ =>
    ScheduledEvent.inTurn_of_not_precedes apart behind

lemma schedule (h : Recorded c scheduled taken) (ahead : c.now ≤ time) :
    Recorded (c.schedule time kind subject) (scheduled ++ [⟨time, kind, subject, scheduled.length⟩]) taken := by
  let new : ScheduledEvent := ⟨time, kind, subject, scheduled.length⟩
  have late : max time c.now = time := by
    apply Time.ext
    rw [Time.toNat_max]
    exact Nat.max_eq_left (Time.le_iff.mp ahead)
  have pending : (c.schedule time kind subject).pending = insert new c.pending := by
    unfold Clock.schedule
    rw [late, h.issued]
  have parts : (scheduled ++ [new]).Perm (taken ++ insert new c.pending) := calc
    List.Perm (scheduled ++ [new]) (new :: scheduled) := List.perm_append_singleton _ _
    List.Perm _ (new :: (taken ++ c.pending)) := h.parts.cons _
    List.Perm _ (taken ++ new :: c.pending) := List.perm_middle.symm
    List.Perm _ (taken ++ insert new c.pending) := (insert_perm _ _).symm.append_left _
  have tickets : (scheduled ++ [new]).map ScheduledEvent.ticket = List.range (scheduled ++ [new]).length := by
    rw [List.map_append, h.tickets, List.length_append, List.length_singleton, List.range_succ]
    rfl
  have apart : ((taken ++ insert new c.pending).map ScheduledEvent.ticket).Nodup := by
    rw [← (parts.map _).nodup_iff, tickets]
    exact List.nodup_range
  have ordered : (c.schedule time kind subject).Ordered := h.ordered.schedule
  refine ⟨?_, tickets, pending ▸ parts, ordered, h.present, h.past, ?_⟩
  · rw [List.length_append, List.length_singleton, ← h.issued]
    rfl
  · obtain ⟨before, _, across⟩ := List.pairwise_append.mp h.sequence
    rw [List.map_append] at apart
    refine List.pairwise_append.mpr ⟨before, turn ordered (pending ▸ (List.nodup_append.mp apart).2.1), ?_⟩
    intro e member other waiting
    rw [pending, (insert_perm _ _).mem_iff] at waiting
    rcases List.mem_cons.mp waiting with rfl | waiting
    · -- Every event that was taken was scheduled before the new one and is not ahead of the present.
      have first := h.ticket_lt (List.mem_append_left _ member)
      exact ⟨Time.le_trans (h.past e member) ahead, fun _ _ => first⟩
    · exact across e member other waiting

lemma pop (h : Recorded c scheduled taken) (next : c.pop? = some (e, c')) :
    Recorded c' scheduled (taken ++ [e]) := by
  unfold Clock.pop? at next
  cases pending : c.pending with
  | nil => simp only [pending, reduceCtorEq] at next
  | cons first rest =>
    simp only [pending, Option.some.injEq, Prod.mk.injEq] at next
    obtain ⟨rfl, rfl⟩ := next
    have same : taken ++ [first] ++ rest = taken ++ c.pending := by
      rw [pending, List.append_assoc]
      rfl
    have future : c.now ≤ first.time := (h.ordered.first pending).1
    refine ⟨h.issued, h.tickets, same ▸ h.parts, h.ordered.pop pending, ?_, ?_, same ▸ h.sequence⟩
    · rw [List.getLast?_concat]
      rfl
    · intro e member
      rcases List.mem_append.mp member with member | member
      · exact Time.le_trans (h.past e member) future
      · exact List.mem_singleton.mp member ▸ Time.le_refl _

/-- What is outstanding is what the clock still holds. -/
lemma outstanding_perm (h : Recorded c scheduled taken) : (outstanding scheduled taken).Perm c.pending := by
  have apart : (taken ++ c.pending).Nodup := List.Nodup.of_map _ h.nodup_tickets
  have gone : taken.filter (· ∉ taken) = [] := by
    refine List.filter_eq_nil_iff.mpr fun e member => ?_
    simp only [decide_not, member, decide_true, Bool.not_true, Bool.false_eq_true, not_false_eq_true]
  have left : c.pending.filter (· ∉ taken) = c.pending := by
    refine List.filter_eq_self.mpr fun e member => decide_eq_true fun before => ?_
    exact (List.nodup_append.mp apart).2.2 e before e member rfl
  have parts := h.parts.filter fun e => decide (e ∉ taken)
  rw [List.filter_append, gone, left] at parts
  exact parts

lemma precedes_or {a b : ScheduledEvent} (h : Recorded c scheduled taken) (first : a ∈ c.pending)
    (second : b ∈ c.pending) (differ : a ≠ b) : a.Precedes b ∨ b.Precedes a := by
  refine ScheduledEvent.precedes_total fun same => differ ?_
  exact List.inj_on_of_nodup_map h.nodup_tickets (List.mem_append_right _ first) (List.mem_append_right _ second) same

/-- The event that is taken is the one that no other event precedes. -/
lemma pop?_iff (h : Recorded c scheduled taken) :
    (∃ c', c.pop? = some (e, c')) ↔ e ∈ c.pending ∧ ∀ other ∈ c.pending, ¬ other.Precedes e := by
  unfold Clock.pop?
  cases pending : c.pending with
  | nil => simp only [reduceCtorEq, exists_false, List.not_mem_nil, false_and]
  | cons first rest =>
    have foremost := (h.ordered.first pending).2
    simp only [Option.some.injEq, Prod.mk.injEq, exists_and_left, exists_eq', and_true]
    constructor
    · rintro rfl
      refine ⟨List.mem_cons_self, fun other member => ?_⟩
      rcases List.mem_cons.mp member with rfl | member
      · exact ScheduledEvent.not_precedes_self
      · exact foremost other member
    · rintro ⟨member, unpreceded⟩
      rcases List.mem_cons.mp member with rfl | member
      · rfl
      · by_contra differ
        have both := h.precedes_or (pending ▸ List.mem_cons_self) (pending ▸ List.mem_cons_of_mem _ member) differ
        exact both.elim (unpreceded first List.mem_cons_self) (foremost e member)

end Recorded

/-- A clock is recorded whatever is done to it. -/
lemma Used.recorded (used : Used c scheduled taken) : Recorded c scheduled taken := by
  induction used with
  | fresh => exact .fresh
  | schedule _ _ _ _ ahead ih => exact ih.schedule ahead
  | scheduleIn _ _ _ _ ih => exact ih.schedule (Time.le_add _ _)
  | pop _ next ih => exact ih.pop next

/-- The events that are taken one after the other, at most a number of them, and the clock that is left. -/
def takes (c : Clock) : Nat → List ScheduledEvent × Clock
  | 0 => ([], c)
  | n + 1 =>
    match c.pop? with
    | some (e, c') => (e :: (c'.takes n).1, (c'.takes n).2)
    | none => ([], c)

lemma Used.takes (used : Used c scheduled taken) (n : Nat) :
    Used (c.takes n).2 scheduled (taken ++ (c.takes n).1) := by
  induction n generalizing c taken with
  | zero => exact (List.append_nil taken).symm ▸ used
  | succ n ih =>
    unfold Clock.takes
    cases next : c.pop? with
    | none => exact (List.append_nil taken).symm ▸ used
    | some taking =>
      have rest := ih (used.pop next)
      rw [List.append_assoc] at rest
      exact rest

lemma size_takes (c : Clock) (n : Nat) : (c.takes n).2.size = c.size - n := by
  induction n generalizing c with
  | zero => rfl
  | succ n ih =>
    unfold takes pop?
    cases pending : c.pending with
    | nil => simp only [size, pending, List.length_nil, Nat.zero_sub]
    | cons first rest =>
      show ({ c with now := first.time, pending := rest }.takes n).2.size = _
      rw [ih]
      simp only [size, pending, List.length_cons, Nat.add_sub_add_right]

lemma pop?_eq_none : c.pop? = none ↔ c.pending = [] := by
  unfold pop?
  cases c.pending with
  | nil => exact iff_of_true rfl rfl
  | cons first rest => exact iff_of_false nofun nofun

lemma now_of_pop (next : c.pop? = some (e, c')) : c'.now = e.time := by
  unfold pop? at next
  cases pending : c.pending with
  | nil => simp only [pending, reduceCtorEq] at next
  | cons first rest =>
    simp only [pending, Option.some.injEq, Prod.mk.injEq] at next
    obtain ⟨rfl, rfl⟩ := next
    rfl

/-- The next time is the least time of what is to come. -/
lemma Ordered.nextTime?_iff (h : c.Ordered) :
    c.nextTime? = some time ↔ (∃ e ∈ c.pending, e.time = time) ∧ ∀ e ∈ c.pending, time ≤ e.time := by
  unfold nextTime?
  cases pending : c.pending with
  | nil => simp only [List.head?_nil, Option.map_none, reduceCtorEq, List.not_mem_nil, false_and, exists_false]
  | cons first rest =>
    have foremost (e : ScheduledEvent) (member : e ∈ first :: rest) : first.time ≤ e.time := by
      rcases List.mem_cons.mp member with rfl | member
      · exact Time.le_refl _
      · exact ScheduledEvent.time_le_of_not_precedes ((h.first pending).2 e member)
    simp only [List.head?_cons, Option.map_some, Option.some.injEq]
    constructor
    · rintro rfl
      exact ⟨⟨first, List.mem_cons_self, rfl⟩, foremost⟩
    · rintro ⟨⟨e, member, rfl⟩, least⟩
      exact Time.ext (Nat.le_antisymm (Time.le_iff.mp (foremost e member))
        (Time.le_iff.mp (least first List.mem_cons_self)))

/-- Events are delivered in order and none is lost. Whatever has been done to a clock, the events that have been
scheduled are those that have been taken and those that are outstanding, each of them once. The event that is taken
next is the only outstanding one that no other exceeds in urgency, so it precedes all others, and its time becomes the
present, which never goes back. The events that have been taken were so in turn. What the clock tells of itself it
tells of the outstanding events, and when as many events are taken as there are, none is left. -/
theorem delivery (used : Used c scheduled taken) :
    let waiting := outstanding scheduled taken
    scheduled.map ScheduledEvent.ticket = List.range scheduled.length ∧
    scheduled.Perm (taken ++ waiting) ∧
    (c.pop? = none ↔ waiting = []) ∧
    (∀ e, (∃ c', c.pop? = some (e, c')) ↔ e ∈ waiting ∧ ∀ other ∈ waiting, other.urgency e ≠ .gt) ∧
    (∀ e c', c.pop? = some (e, c') →
      (∀ other ∈ waiting, other ≠ e → e.Precedes other) ∧ c.now ≤ e.time ∧ c'.now = e.time) ∧
    c.now = (taken.getLast?.map ScheduledEvent.time).getD 0 ∧
    taken.Pairwise ScheduledEvent.InTurn ∧
    (∀ t, c.nextTime? = some t ↔ (∃ e ∈ waiting, e.time = t) ∧ ∀ e ∈ waiting, t ≤ e.time) ∧
    (∀ kind, c.hasPending kind = true ↔ ∃ e ∈ waiting, e.kind = kind) ∧
    c.size = waiting.length ∧
    (c.isEmpty = true ↔ waiting = []) ∧
    (c.takes c.size).2.isEmpty = true ∧
    scheduled.Perm (taken ++ (c.takes c.size).1) ∧
    (taken ++ (c.takes c.size).1).Pairwise ScheduledEvent.InTurn := by
  intro waiting
  have record := used.recorded
  have same : waiting.Perm c.pending := record.outstanding_perm
  have holds (e : ScheduledEvent) : e ∈ waiting ↔ e ∈ c.pending := same.mem_iff
  have none_left : c.pending = [] ↔ waiting = [] := by
    rw [← List.length_eq_zero_iff, ← List.length_eq_zero_iff, same.length_eq]
  have drained := (used.takes c.size).recorded
  have empty : (c.takes c.size).2.pending = [] := by
    refine List.length_eq_zero_iff.mp ((size_takes c c.size).trans ?_)
    exact Nat.sub_self _
  have parts := drained.parts
  rw [empty, List.append_nil] at parts
  refine ⟨record.tickets, record.parts.trans (same.symm.append_left _), pop?_eq_none.trans none_left, ?_, ?_,
    record.present, (List.pairwise_append.mp record.sequence).1, ?_, ?_, same.length_eq.symm,
    List.isEmpty_iff.trans none_left, List.isEmpty_iff.mpr empty, parts,
    (List.pairwise_append.mp drained.sequence).1⟩
  · intro e
    simp only [record.pop?_iff, holds, ne_eq, ScheduledEvent.urgency_eq_gt]
  · intro e c' next
    obtain ⟨member, unpreceded⟩ := record.pop?_iff.mp ⟨c', next⟩
    refine ⟨fun other waits differ => ?_, record.ordered.ahead e member, now_of_pop next⟩
    have waits := (holds other).mp waits
    exact (record.precedes_or member waits (Ne.symm differ)).resolve_right (unpreceded other waits)
  · intro t
    simp only [record.ordered.nextTime?_iff, holds]
  · intro kind
    simp only [hasPending, List.any_eq_true, decide_eq_true_eq, holds]

/-- Two requests come in and a cycle is due at one moment. -/
def busyMoment : Clock :=
  ((({} : Clock).schedule ⟨1000⟩ .requestSubmitted (some (.request ⟨1⟩))).schedule ⟨1000⟩ .requestSubmitted
    (some (.request ⟨2⟩))).schedule ⟨1000⟩ .dispatchCycle none

/-- The cycle is taken first, and another one that it asks for at once is taken before the requests. -/
theorem delivery_busyMoment : ∃ c e c' scheduled,
    busyMoment.pop? = some (e, c) ∧ e.kind = .dispatchCycle ∧
    (c.scheduleIn 0 .dispatchCycle none).pop? = some (⟨⟨1000⟩, .dispatchCycle, none, 3⟩, c') ∧
    Used c' scheduled [e, ⟨⟨1000⟩, .dispatchCycle, none, 3⟩] ∧
    scheduled.Perm ([e, ⟨⟨1000⟩, .dispatchCycle, none, 3⟩] ++ (c'.takes c'.size).1) ∧
    (c'.takes c'.size).1.map ScheduledEvent.ticket = [0, 1] := by
  have asked : Used busyMoment _ [] :=
    .schedule _ _ _ (.schedule _ _ _ (.schedule _ _ _ .fresh (by decide)) (by decide)) (by decide)
  have used := (asked.pop rfl).scheduleIn 0 .dispatchCycle none |>.pop rfl
  obtain ⟨_, _, _, _, _, _, _, _, _, _, _, _, parts, _⟩ := delivery used
  exact ⟨_, _, _, _, rfl, rfl, rfl, used, parts, rfl⟩

end Clock

end RideDispatch

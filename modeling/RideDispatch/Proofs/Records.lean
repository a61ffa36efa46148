import RideDispatch.Log
import RideDispatch.Proofs.Table

/-!
# Ride records

The records of the rides are gathered in one pass over the log, and what they say is also to be found by a search of
the log (`Log.rideRecords_agree`). The pass treats each ride as if its events were alone in the log
(`Log.getElem?_foldl_extendRecords`), and for one ride it keeps the first time of each step and the last vehicle
(`RideRecord.timeOf_foldl_extend`, `RideRecord.vehicle_foldl_extend`).
-/

namespace RideDispatch

/-! ## One ride -/

namespace RideRecord

variable (record : RideRecord) (e : RideEvent) (events : List RideEvent) (stage : RideStage)

lemma request_extend : (record.extend e).request = record.request := by
  unfold extend
  cases e.stage <;> rfl

lemma vehicle_extend : (record.extend e).vehicle = e.vehicle.or record.vehicle := by
  unfold extend
  cases e.stage <;> rfl

/-- An event gives its time to its step, if this has none, and to no other. -/
lemma timeOf_extend :
    (record.extend e).timeOf stage = (record.timeOf stage).or (if e.stage = stage then some e.time else none) := by
  unfold extend
  cases e.stage <;> cases stage <;> first | rfl | exact (Option.or_none ..).symm

lemma request_foldl_extend : (events.foldl extend record).request = record.request := by
  induction events generalizing record with
  | nil => rfl
  | cons e events ih => rw [List.foldl_cons, ih, request_extend]

/-- The first event of a step gives its time. -/
lemma timeOf_foldl_extend : (events.foldl extend record).timeOf stage =
    (record.timeOf stage).or ((events.find? fun e => e.stage = stage).map RideEvent.time) := by
  induction events generalizing record with
  | nil => exact (Option.or_none ..).symm
  | cons e events ih =>
    rw [List.foldl_cons, ih, timeOf_extend, Option.or_assoc]
    by_cases same : e.stage = stage
    · rw [if_pos same, List.find?_cons_of_pos (by simpa using same)]
      rfl
    · rw [if_neg same, List.find?_cons_of_neg (by simpa using same)]
      rfl

/-- The last vehicle that an event carries stays. -/
lemma vehicle_foldl_extend :
    (events.foldl extend record).vehicle = (events.filterMap RideEvent.vehicle).getLast?.or record.vehicle := by
  induction events generalizing record with
  | nil => rfl
  | cons e events ih =>
    rw [List.foldl_cons, ih, vehicle_extend]
    cases carried : e.vehicle with
    | none => rw [List.filterMap_cons_none carried, Option.none_or]
    | some vehicle =>
      rw [List.filterMap_cons_some carried, List.getLast?_cons]
      cases (events.filterMap RideEvent.vehicle).getLast? <;> rfl

end RideRecord

/-! ## The log -/

namespace Log

variable {log : Log} {r : RequestId}

/-- The events of a ride, in the order of the log. -/
def ridesOf (log : Log) (r : RequestId) : List RideEvent := log.rides.filter fun e => e.request = r

lemma mem_ridesOf {e : RideEvent} : e ∈ log.ridesOf r ↔ LogEntry.ride e ∈ log.toList ∧ e.request = r := by
  have logged : e ∈ log.rides ↔ LogEntry.ride e ∈ log.toList := by
    constructor
    · intro member
      obtain ⟨entry, found, same⟩ := List.mem_filterMap.mp member
      cases entry with
      | confirmation c => contradiction
      | ride e' => exact Option.some.inj same ▸ found
    · exact fun found => List.mem_filterMap.mpr ⟨_, found, rfl⟩
  unfold ridesOf
  rw [List.mem_filter, decide_eq_true_iff, logged]

/-- The search for a step of a ride looks at the events of this ride. -/
lemma findRide?_eq (stage : RideStage) : log.findRide? r stage = (log.ridesOf r).find? fun e => e.stage = stage := by
  unfold findRide? ridesOf
  rw [List.find?_filter]
  simp only [Bool.decide_and, Bool.decide_eq_true]

/-- The record of a ride takes in the events of this ride, and of no other. -/
lemma getElem?_foldl_extendRecords (records : Std.ExtTreeMap RequestId RideRecord) (events : List RideEvent)
    (r : RequestId) :
    (events.foldl extendRecords records)[r]? =
      if (events.filter fun e => e.request = r) = [] then records[r]?
      else some ((events.filter fun e => e.request = r).foldl RideRecord.extend
        (records[r]?.getD { request := r })) := by
  induction events generalizing records with
  | nil => rfl
  | cons e events ih =>
    rw [List.foldl_cons, ih, extendRecords, Table.getElem?_insert]
    by_cases same : e.request = r
    · -- The record that the event makes or extends is the one that its later events start from.
      subst same
      rw [List.filter_cons_of_pos (by simp), if_neg (List.cons_ne_nil _ _), if_pos rfl, Option.getD_some,
        List.foldl_cons]
      split_ifs with none
      · rw [none, List.foldl_nil]
      · rfl
    · rw [List.filter_cons_of_neg (by simpa using same), if_neg same]

/-- The record of a ride, if the log has an event of it. -/
lemma getElem?_rideRecords (log : Log) (r : RequestId) :
    log.rideRecords[r]? =
      if log.ridesOf r = [] then none
      else some ((log.ridesOf r).foldl RideRecord.extend { request := r }) := by
  rw [rideRecords, getElem?_foldl_extendRecords, Std.ExtTreeMap.getElem?_empty]
  rfl

/-- There is a record for each ride that the log has an event of, and for no other. It has the time of each step that
is found in the log, and the last vehicle that an event of the ride carries. -/
theorem rideRecords_agree (log : Log) (r : RequestId) :
    ((∃ record, log.rideRecords[r]? = some record) ↔ ∃ e, LogEntry.ride e ∈ log.toList ∧ e.request = r) ∧
    ∀ record, log.rideRecords[r]? = some record →
      record.request = r ∧
      (∀ stage, record.timeOf stage = (log.findRide? r stage).map RideEvent.time) ∧
      record.vehicle = ((log.ridesOf r).filterMap RideEvent.vehicle).getLast? := by
  rw [getElem?_rideRecords]
  refine ⟨?_, ?_⟩
  · simp only [← mem_ridesOf]
    split_ifs with none
    · rw [none]
      exact iff_of_false nofun nofun
    · exact iff_of_true ⟨_, rfl⟩ (List.exists_mem_of_ne_nil _ none)
  · intro record found
    split_ifs at found
    rw [← Option.some.inj found]
    refine ⟨?_, fun stage => ?_, ?_⟩
    · rw [RideRecord.request_foldl_extend]
    · rw [RideRecord.timeOf_foldl_extend, findRide?_eq]
      cases stage <;> rfl
    · rw [RideRecord.vehicle_foldl_extend, Option.or_none]

end Log

end RideDispatch

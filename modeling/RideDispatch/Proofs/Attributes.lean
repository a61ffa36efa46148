import RideDispatch.Confirmation.Event
import RideDispatch.Proofs.Numeral
import RideDispatch.Proofs.Outcome
import RideDispatch.Proofs.Table

/-!
# Flat maps

What an event writes under each name is its `ConfirmationEvent.entry`, and it writes under no other name. A flat map
describes an event if it denotes its numbers and names its stage (`Attributes.Describes`), whatever else it holds;
the event can then be read, and only then (`ConfirmationEvent.ofAttributes_eq_ok`).
-/

namespace RideDispatch

lemma Attribute.name_inj {a b : Attribute} (same : a.name = b.name) : a = b := by
  cases a <;> cases b <;> first | rfl | exact absurd same (by decide)

/-- The attributes that are numbers. -/
def Attribute.numbers : List Attribute := [time, request, person, vehicle]

namespace Attributes

variable {attrs : Attributes} {key : Attribute} {text : String} {α : Type} {read? : String → Option α} {a : α}

lemma text_eq_ok : attrs.text key = .ok text ↔ attrs[key.name]? = some text := by
  unfold Attributes.text
  cases attrs[key.name]? with
  | none => exact iff_of_false nofun nofun
  | some value => rw [Except.ok.injEq, Option.some.injEq]

lemma value_eq_ok : attrs.value key read? = .ok a ↔ ∃ text, attrs[key.name]? = some text ∧ read? text = some a := by
  unfold value
  simp only [← text_eq_ok]
  cases attrs.text key with
  | error => simp only [reduceCtorEq, false_and, exists_false]
  | ok text =>
    simp only [Except.ok.injEq, exists_eq_left']
    cases read? text with
    | none => exact iff_of_false nofun nofun
    | some a => rw [Except.ok.injEq, Option.some.injEq]

lemma bool?_ofBool (b : Bool) : bool? (ofBool b) = some b := by
  cases b <;> rfl

lemma bool?_eq_some {b : Bool} : bool? text = some b ↔ text = ofBool b := by
  constructor
  · unfold bool?
    intro read
    split at read
    · rename_i yes
      rw [← Option.some.inj read, yes]
      rfl
    · obtain ⟨no, same⟩ := Option.ite_none_right_eq_some.mp read
      rw [← Option.some.inj same, no]
      rfl
  · rintro rfl
    exact bool?_ofBool b

lemma getElem?_insert_name {a b : Attribute} :
    (attrs.insert a.name text)[b.name]? = if a = b then some text else attrs[b.name]? := by
  rw [Table.getElem?_insert]
  exact if_congr ⟨Attribute.name_inj, congrArg Attribute.name⟩ rfl rfl

/-- A flat map denotes a number under an attribute. -/
def HasNumber (attrs : Attributes) (key : Attribute) (n : Nat) : Prop :=
  ∃ text, attrs[key.name]? = some text ∧ Decimal.Denotes text n

/-- A flat map names a stage; of the closing one it tells as well whether the driver takes the ride. -/
def HasStage (attrs : Attributes) : ConfirmationStage → Prop
  | .created => attrs[Attribute.type.name]? = some ConfirmationStage.created.name
  | .completed accepted => attrs[Attribute.type.name]? = some (ConfirmationStage.completed accepted).name ∧
    attrs[Attribute.accepted.name]? = some (ofBool accepted)

lemma HasStage.named {stage : ConfirmationStage} (h : attrs.HasStage stage) :
    attrs[Attribute.type.name]? = some stage.name := by
  cases stage with
  | created => exact h
  | completed accepted => exact h.1

/-- What a flat map must hold to describe an event. -/
structure Describes (attrs : Attributes) (e : ConfirmationEvent) : Prop where
  time : attrs.HasNumber .time e.time.toNat
  request : attrs.HasNumber .request e.request.val.toNat
  passenger : attrs.HasNumber .person e.passenger.val.toNat
  vehicle : attrs.HasNumber .vehicle e.vehicle.val.toNat
  stage : attrs.HasStage e.stage

/-- Two maps that describe an event denote the same numbers. -/
lemma Describes.same_number {attrs' : Attributes} {e : ConfirmationEvent} (h : attrs.Describes e)
    (h' : attrs'.Describes e) (number : key ∈ Attribute.numbers) :
    ∃ n < UInt64.size, attrs.HasNumber key n ∧ attrs'.HasNumber key n := by
  simp only [Attribute.numbers, List.mem_cons, List.not_mem_nil, or_false] at number
  obtain rfl | rfl | rfl | rfl := number
  · exact ⟨_, e.time.ms.toNat_lt, h.time, h'.time⟩
  · exact ⟨_, e.request.val.toNat_lt, h.request, h'.request⟩
  · exact ⟨_, e.passenger.val.toNat_lt, h.passenger, h'.passenger⟩
  · exact ⟨_, e.vehicle.val.toNat_lt, h.vehicle, h'.vehicle⟩

/-- A map that denotes numbers which fit and that names a stage describes an event. -/
lemma exists_describes {stage : ConfirmationStage}
    (numbers : ∀ key ∈ Attribute.numbers, ∃ n < UInt64.size, attrs.HasNumber key n) (staged : attrs.HasStage stage) :
    ∃ e, attrs.Describes e := by
  have words (key : Attribute) (number : key ∈ Attribute.numbers) : ∃ w : UInt64, attrs.HasNumber key w.toNat := by
    obtain ⟨n, fits, has⟩ := numbers key number
    refine ⟨n.toUInt64, ?_⟩
    rw [show n.toUInt64.toNat = n from UInt64.toNat_ofNat_of_lt fits]
    exact has
  obtain ⟨time, timed⟩ := words .time (by decide)
  obtain ⟨request, asked⟩ := words .request (by decide)
  obtain ⟨passenger, travels⟩ := words .person (by decide)
  obtain ⟨vehicle, drives⟩ := words .vehicle (by decide)
  exact ⟨⟨⟨time⟩, ⟨request⟩, ⟨passenger⟩, ⟨vehicle⟩, stage⟩, timed, asked, travels, drives, staged⟩

lemma word_eq_ok {w : UInt64} : attrs.value key Decimal.word? = .ok w ↔ attrs.HasNumber key w.toNat := by
  simp only [value_eq_ok, Decimal.word?_eq_some, HasNumber]

end Attributes

namespace ConfirmationEvent

open Attributes

variable {attrs : Attributes} {e : ConfirmationEvent}

/-- What an event writes under an attribute. -/
def entry (e : ConfirmationEvent) : Attribute → Option String
  | .time => some (toString e.time.ms)
  | .type => some e.stage.name
  | .request => some (toString e.request.val)
  | .person => some (toString e.passenger.val)
  | .vehicle => some (toString e.vehicle.val)
  | .accepted =>
    match e.stage with
    | .created => none
    | .completed accepted => some (ofBool accepted)

lemma getElem?_toAttributes (e : ConfirmationEvent) (key : Attribute) : e.toAttributes[key.name]? = e.entry key := by
  obtain ⟨time, request, passenger, vehicle, stage⟩ := e
  cases stage with
  | created =>
    simp only [toAttributes, getElem?_insert_name, Std.ExtTreeMap.getElem?_empty]
    cases key <;> rfl
  | completed accepted =>
    simp only [toAttributes, getElem?_insert_name, Std.ExtTreeMap.getElem?_empty]
    cases key <;> rfl

/-- An event writes under the names of the attributes only. -/
lemma getElem?_toAttributes_of_other {name : String} (other : ∀ key : Attribute, key.name ≠ name) :
    e.toAttributes[name]? = none := by
  obtain ⟨time, request, passenger, vehicle, stage⟩ := e
  cases stage with
  | created => simp only [toAttributes, Table.getElem?_insert, other, if_false, Std.ExtTreeMap.getElem?_empty]
  | completed accepted =>
    simp only [toAttributes, Table.getElem?_insert, other, if_false, Std.ExtTreeMap.getElem?_empty]

lemma hasStage_toAttributes (e : ConfirmationEvent) : e.toAttributes.HasStage e.stage := by
  have type := e.getElem?_toAttributes .type
  have accepts := e.getElem?_toAttributes .accepted
  obtain ⟨time, request, passenger, vehicle, stage⟩ := e
  cases stage with
  | created => exact type
  | completed accepted => exact ⟨type, accepts⟩

/-- An event is described by what it writes. -/
lemma describes_toAttributes (e : ConfirmationEvent) : e.toAttributes.Describes e where
  time := ⟨_, e.getElem?_toAttributes .time, Decimal.denotes_toString _⟩
  request := ⟨_, e.getElem?_toAttributes .request, Decimal.denotes_toString _⟩
  passenger := ⟨_, e.getElem?_toAttributes .person, Decimal.denotes_toString _⟩
  vehicle := ⟨_, e.getElem?_toAttributes .vehicle, Decimal.denotes_toString _⟩
  stage := e.hasStage_toAttributes

/-- Reads the stage that has a name. -/
def stageNamed (attrs : Attributes) (type : String) : Except AttributeError ConfirmationStage :=
  if type = ConfirmationStage.created.name then pure .created
  else if type = (ConfirmationStage.completed true).name then
    ConfirmationStage.completed <$> attrs.value .accepted bool?
  else throw (.unknownType type)

/-- The stage that is read is the one that the map names. -/
lemma stageNamed_eq_ok {type : String} {stage : ConfirmationStage}
    (named : attrs[Attribute.type.name]? = some type) :
    stageNamed attrs type = .ok stage ↔ attrs.HasStage stage := by
  unfold stageNamed
  constructor
  · intro read
    split at read
    · rename_i created
      cases read
      exact named.trans (congrArg some created)
    · split at read
      · rename_i completed
        obtain ⟨accepted, accepts, rfl⟩ := map_eq_ok read
        obtain ⟨text, found, read⟩ := value_eq_ok.mp accepts
        rw [bool?_eq_some.mp read] at found
        exact ⟨named.trans (congrArg some completed), found⟩
      · cases read
  · intro has
    cases stage with
    | created =>
      rw [if_pos (Option.some.inj (named.symm.trans has))]
      rfl
    | completed accepted =>
      obtain ⟨completed, found⟩ := has
      have closes : type = (ConfirmationStage.completed true).name := Option.some.inj (named.symm.trans completed)
      subst closes
      rw [if_neg (by decide), if_pos rfl, value_eq_ok.mpr ⟨_, found, bool?_ofBool accepted⟩]
      rfl

lemma ofAttributes_eq (attrs : Attributes) : ofAttributes attrs = (do
    let time ← attrs.value .time Decimal.word?
    let request ← attrs.value .request Decimal.word?
    let passenger ← attrs.value .person Decimal.word?
    let vehicle ← attrs.value .vehicle Decimal.word?
    let type ← attrs.text .type
    let stage ← stageNamed attrs type
    return ⟨⟨time⟩, ⟨request⟩, ⟨passenger⟩, ⟨vehicle⟩, stage⟩) := by
  unfold ofAttributes stageNamed
  congr! 10
  split_ifs <;> rfl

/-- An event can be read from a flat map just if the map describes it. -/
lemma ofAttributes_eq_ok : ofAttributes attrs = .ok e ↔ attrs.Describes e := by
  rw [ofAttributes_eq]
  constructor
  · intro read
    obtain ⟨time, timed, read⟩ := bind_eq_ok read
    obtain ⟨request, asked, read⟩ := bind_eq_ok read
    obtain ⟨passenger, travels, read⟩ := bind_eq_ok read
    obtain ⟨vehicle, drives, read⟩ := bind_eq_ok read
    obtain ⟨type, named, read⟩ := bind_eq_ok read
    obtain ⟨stage, staged, read⟩ := bind_eq_ok read
    cases read
    exact ⟨word_eq_ok.mp timed, word_eq_ok.mp asked, word_eq_ok.mp travels, word_eq_ok.mp drives,
      (stageNamed_eq_ok (text_eq_ok.mp named)).mp staged⟩
  · intro h
    have named := h.stage.named
    rw [word_eq_ok.mpr h.time, word_eq_ok.mpr h.request, word_eq_ok.mpr h.passenger, word_eq_ok.mpr h.vehicle,
      text_eq_ok.mpr named]
    show (stageNamed attrs e.stage.name >>= fun stage => pure _) = _
    rw [(stageNamed_eq_ok named).mpr h.stage]
    rfl

/-- Beside its numbers an event writes what the map that describes it holds. -/
lemma accepted_toAttributes (h : attrs.Describes e) :
    e.toAttributes[Attribute.accepted.name]? =
      if attrs[Attribute.type.name]? = some ConfirmationStage.created.name then none
      else attrs[Attribute.accepted.name]? := by
  have writes := e.getElem?_toAttributes .accepted
  obtain ⟨time, request, passenger, vehicle, stage⟩ := e
  cases stage with
  | created => exact writes.trans (if_pos h.stage).symm
  | completed accepted =>
    have closes : ¬ attrs[Attribute.type.name]? = some ConfirmationStage.created.name := by
      rw [h.stage.named]
      show ¬ some (ConfirmationStage.completed true).name = some ConfirmationStage.created.name
      decide
    rw [if_neg closes]
    exact writes.trans h.stage.2.symm

/-- Nothing is lost when an event is written as a flat map: it reads back. A flat map can be read just if its numbers
are denoted and fit in words and it names a stage, and what is read is the one event that it describes. The map that
this event writes has the same numbers, names the same stage and tells in the same words whether the driver takes the
ride, and holds nothing else. -/
theorem faithful_attributes :
    (∀ e : ConfirmationEvent, ofAttributes e.toAttributes = .ok e) ∧
    ∀ attrs : Attributes,
      ((∃ e, ofAttributes attrs = .ok e) ↔
        (∀ key ∈ Attribute.numbers, ∃ n < UInt64.size, attrs.HasNumber key n) ∧ ∃ stage, attrs.HasStage stage) ∧
      ∀ e, (ofAttributes attrs = .ok e ↔ attrs.Describes e) ∧
        (ofAttributes attrs = .ok e →
          (∀ key ∈ Attribute.numbers, ∃ n, attrs.HasNumber key n ∧ e.toAttributes.HasNumber key n) ∧
          e.toAttributes[Attribute.type.name]? = attrs[Attribute.type.name]? ∧
          e.toAttributes[Attribute.accepted.name]? =
            (if attrs[Attribute.type.name]? = some ConfirmationStage.created.name then none
            else attrs[Attribute.accepted.name]?) ∧
          ∀ name, (∀ key : Attribute, key.name ≠ name) → e.toAttributes[name]? = none) := by
  refine ⟨fun e => ofAttributes_eq_ok.mpr e.describes_toAttributes,
    fun attrs => ⟨?_, fun e => ⟨ofAttributes_eq_ok, ?_⟩⟩⟩
  · simp only [ofAttributes_eq_ok]
    constructor
    · rintro ⟨e, h⟩
      refine ⟨fun key number => ?_, e.stage, h.stage⟩
      obtain ⟨n, fits, has, _⟩ := h.same_number h number
      exact ⟨n, fits, has⟩
    · rintro ⟨numbers, stage, staged⟩
      exact exists_describes numbers staged
  · intro read
    have h := ofAttributes_eq_ok.mp read
    refine ⟨fun key number => ?_, h.stage.named ▸ e.hasStage_toAttributes.named, accepted_toAttributes h,
      fun name other => getElem?_toAttributes_of_other other⟩
    obtain ⟨n, _, both⟩ := h.same_number e.describes_toAttributes number
    exact ⟨n, both⟩

end ConfirmationEvent

end RideDispatch

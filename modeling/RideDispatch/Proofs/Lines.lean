import Mathlib.Data.List.Forall2
import RideDispatch.Log.Document
import RideDispatch.Proofs.Printed

/-!
# Reading the log back

The text of a log has one line for each entry, and a line is read as the entry that it was written for
(`Log.jsonLines_read`). An entry is read from a parse tree, so the fields that a reader takes from a tree are compared
with those of the value that the tree stands for (`Json.Tree.Stands`). A ride event is never taken for a confirmation
event, since its document has no type (`ConfirmationEvent.ofJson?_ride`).
-/

namespace RideDispatch

namespace Json

/-! ## Trees and their values -/

section Trees

variable {depth depth' : Nat} {t : Tree} {ts : List Tree} {nodes : List (List Glyph × Tree)}
variable {j : Json} {items : List Json} {entries : List (String × Json)}

lemma itemsWithin?_mono (deeper : ∀ {t : Tree} {j}, t.valueWithin? depth = some j → t.valueWithin? depth' = some j)
    (value : Tree.itemsWithin? depth ts = some items) : Tree.itemsWithin? depth' ts = some items := by
  induction ts generalizing items with
  | nil => exact value
  | cons t ts ih =>
    rw [Tree.itemsWithin?] at value ⊢
    split at value
    · rename_i first others
      rw [deeper first, ih others]
      exact value
    · contradiction

lemma entriesWithin?_mono (deeper : ∀ {t : Tree} {j}, t.valueWithin? depth = some j → t.valueWithin? depth' = some j)
    (value : Tree.entriesWithin? depth nodes = some entries) :
    Tree.entriesWithin? depth' nodes = some entries := by
  induction nodes generalizing entries with
  | nil => exact value
  | cons node nodes ih =>
    obtain ⟨name, t⟩ := node
    rw [Tree.entriesWithin?] at value ⊢
    split at value
    · rename_i named first others
      rw [named, deeper first, ih others]
      exact value
    · contradiction

/-- A tree keeps its value where it may be nested deeper. -/
lemma valueWithin?_mono (le : depth ≤ depth') (value : t.valueWithin? depth = some j) :
    t.valueWithin? depth' = some j := by
  induction depth generalizing depth' t j with
  | zero => cases t <;> first | exact value | contradiction
  | succ depth ih =>
    obtain ⟨depth', rfl⟩ := Nat.exists_eq_add_one_of_ne_zero (show depth' ≠ 0 by omega)
    have deeper {t : Tree} {j : Json} : t.valueWithin? depth = some j → t.valueWithin? depth' = some j :=
      ih (Nat.le_of_succ_le_succ le)
    cases t with
    | arr ts =>
      rw [Tree.valueWithin?] at value ⊢
      obtain ⟨items, found, rfl⟩ := Option.map_eq_some_iff.mp value
      rw [itemsWithin?_mono deeper found, Option.map_some]
    | obj nodes =>
      rw [Tree.valueWithin?] at value ⊢
      obtain ⟨entries, found, rfl⟩ := Option.map_eq_some_iff.mp value
      rw [entriesWithin?_mono deeper found, Option.map_some]
    | null | bool _ | num _ | str _ => exact value

/-- A named tree stands for a named value: the names are the same, and the value is the tree's. -/
def Tree.Stands (node : String × Tree) (entry : String × Json) : Prop :=
  node.1 = entry.1 ∧ node.2.value? = some entry.2

lemma entries?_of_entriesWithin? (le : depth ≤ Tree.maxDepth) (value : Tree.entriesWithin? depth nodes = some entries) :
    ∃ named, (Tree.obj nodes).entries? = some named ∧ List.Forall₂ Tree.Stands named entries := by
  induction nodes generalizing entries with
  | nil =>
    rw [← Option.some.inj value]
    exact ⟨[], rfl, .nil⟩
  | cons node nodes ih =>
    obtain ⟨name, t⟩ := node
    rw [Tree.entriesWithin?] at value
    split at value
    · rename_i text first others
      obtain ⟨named, read, stand⟩ := ih others
      rw [← Option.some.inj value]
      refine ⟨(String.ofList _, t) :: named, ?_, .cons ⟨rfl, valueWithin?_mono le first⟩ stand⟩
      rw [Tree.entries?] at read ⊢
      rw [List.mapM_cons, text, read]
      rfl
    · contradiction

/-- The entries of a tree stand for those of its value. -/
lemma entries?_of_value (value : t.value? = some (.obj entries)) :
    ∃ named, t.entries? = some named ∧ List.Forall₂ Tree.Stands named entries := by
  cases t with
  | obj nodes =>
    obtain ⟨entries', found, same⟩ := Option.map_eq_some_iff.mp value
    rw [obj.inj same] at found
    -- The entries of an object may be nested one less deep than the object itself.
    exact entries?_of_entriesWithin? (Nat.le_succ 126) found
  | arr _ | num _ | str _ =>
    obtain ⟨_, _, same⟩ := Option.map_eq_some_iff.mp value
    exact absurd same nofun
  | null | bool _ => exact absurd (Option.some.inj value) nofun

end Trees

/-! ## Fields -/

section Fields

variable {α : Type} {named : List (String × Tree)} {entries : List (String × Json)} {name : String} {j : Json}
variable {n : UInt64}

lemma word?_ofWord (n : UInt64) : (ofWord n).word? = some n := by
  have inside : (0 : Int) ≤ n.toNat ∧ (n.toNat : Int) < UInt64.size :=
    ⟨Int.natCast_nonneg _, Int.ofNat_lt.mpr n.toNat_lt_size⟩
  rw [ofWord, word?, if_pos inside, Int.toNat_natCast]
  exact congrArg some UInt64.ofNat_toNat

lemma valuesOf_nil {β : Type} (name : String) : valuesOf ([] : List (String × β)) name = [] := rfl

lemma valuesOf_cons {β : Type} (other name : String) (b : β) (rest : List (String × β)) :
    valuesOf ((other, b) :: rest) name = if other = name then b :: valuesOf rest name else valuesOf rest name := by
  unfold valuesOf
  rw [List.filter_cons]
  simp only [beq_iff_eq]
  split_ifs <;> rfl

/-- The trees of a name stand for the values of that name. -/
lemma valuesOf_of_stands (stand : List.Forall₂ Tree.Stands named entries) (name : String) :
    List.Forall₂ (fun t j => t.value? = some j) (valuesOf named name) (valuesOf entries name) := by
  unfold valuesOf
  induction stand with
  | nil => exact .nil
  | @cons node entry named entries head _ ih =>
    rw [List.filter_cons, List.filter_cons, head.1]
    split_ifs
    · exact .cons head.2 ih
    · exact ih

/-- The one value of a name is that of the one tree of this name. -/
lemma valuesOf_singleton_of_stands (stand : List.Forall₂ Tree.Stands named entries)
    (one : valuesOf entries name = [j]) : ∃ t, valuesOf named name = [t] ∧ t.value? = some j := by
  have same := valuesOf_of_stands stand name
  rw [one] at same
  obtain ⟨t, rest, value, nothing, others⟩ := List.forall₂_cons_right_iff.mp same
  rw [List.forall₂_nil_right_iff.mp nothing] at others
  exact ⟨t, others, value⟩

lemma required?_of_singleton {β : Type} {fields : List (String × β)} {b : β} (one : valuesOf fields name = [b])
    (read? : β → Option α) : required? fields name read? = read? b := by
  rw [required?, one]

lemma required?_of_nil {β : Type} {fields : List (String × β)} (absent : valuesOf fields name = [])
    (read? : β → Option α) : required? fields name read? = none := by
  rw [required?, absent]

lemma required?_word (one : valuesOf entries name = [ofWord n]) : required? entries name word? = some n :=
  (required?_of_singleton one word?).trans (word?_ofWord n)

/-- A word is read from a tree as it is read from the value. -/
lemma required?_word_of_stands (stand : List.Forall₂ Tree.Stands named entries)
    (one : valuesOf entries name = [ofWord n]) : required? named name Tree.word? = some n := by
  obtain ⟨t, others, value⟩ := valuesOf_singleton_of_stands stand one
  rw [required?_of_singleton others, Tree.word?, value, Option.bind_some, word?_ofWord]

end Fields

end Json

/-! ## Documents -/

section Documents

variable {t : Json.Tree}

/-- The fields of a ride event's document; a type is not among them. -/
lemma RideEvent.entries_toJson (e : RideEvent) :
    ∃ entries, e.toJson = .obj entries ∧ Json.valuesOf entries "type" = [] ∧
      Json.valuesOf entries "time" = [.ofWord e.time.ms] ∧ Json.valuesOf entries "kind" = [.str e.stage.name] ∧
      Json.valuesOf entries "request" = [.ofWord e.request.val] ∧
      Json.valuesOf entries "passenger" = [.ofWord e.passenger.val] ∧
      Json.valuesOf entries "vehicle" = e.vehicle.toList.map fun vehicle => .ofWord vehicle.val := by
  obtain ⟨time, stage, request, passenger, vehicle⟩ := e
  cases vehicle with
  | none =>
    refine ⟨_, rfl, ?_, ?_, ?_, ?_, ?_, ?_⟩ <;>
      simp only [Json.valuesOf_cons, Json.valuesOf_nil, String.reduceEq, reduceIte, Option.toList, List.map_nil]
  | some vehicle =>
    refine ⟨_, rfl, ?_, ?_, ?_, ?_, ?_, ?_⟩ <;>
      simp only [Json.valuesOf_cons, Json.valuesOf_nil, String.reduceEq, reduceIte, List.cons_append, List.nil_append,
        Option.toList, List.map_cons, List.map_nil]

/-- The fields of a confirmation event's document. -/
lemma ConfirmationEvent.entries_toJson (e : ConfirmationEvent) :
    ∃ entries, e.toJson = .obj entries ∧ Json.valuesOf entries "type" = [.str e.stage.name] ∧
      Json.valuesOf entries "time" = [.ofWord e.time.ms] ∧ Json.valuesOf entries "request" = [.ofWord e.request.val] ∧
      Json.valuesOf entries "passenger" = [.ofWord e.passenger.val] ∧
      Json.valuesOf entries "vehicle" = [.ofWord e.vehicle.val] ∧
      ∀ accepted, e.stage = .completed accepted → Json.valuesOf entries "accepted" = [.bool accepted] := by
  obtain ⟨time, request, passenger, vehicle, stage⟩ := e
  cases stage with
  | created =>
    refine ⟨_, rfl, ?_⟩
    simp only [Json.valuesOf_cons, Json.valuesOf_nil, String.reduceEq, reduceIte, and_self, reduceCtorEq,
      false_implies, implies_true]
  | completed accepted =>
    refine ⟨_, rfl, ?_⟩
    simp only [List.cons_append, List.nil_append, Json.valuesOf_cons, Json.valuesOf_nil, String.reduceEq, reduceIte,
      ConfirmationStage.completed.injEq, true_and]
    rintro _ rfl
    rfl

lemma ConfirmationEvent.closes?_name (byNumber : Bool) (stage : ConfirmationStage) :
    closes? byNumber (.str stage.name) = some (decide (stage ≠ .created)) := by
  cases stage <;> simp [closes?, ConfirmationStage.name]

/-- A confirmation event reads back from its document, also where the stages may be given by their numbers. -/
theorem ConfirmationEvent.ofJson?_toJson (byNumber : Bool) (e : ConfirmationEvent) :
    ofJson? byNumber e.toJson = some e := by
  obtain ⟨entries, written, type, time, request, passenger, vehicle, accepted⟩ := e.entries_toJson
  rw [written, ofJson?]
  simp only [Json.required?_word time, Json.required?_word request, Json.required?_word passenger,
    Json.required?_word vehicle, Json.required?_of_singleton type, closes?_name, Option.bind_some]
  obtain ⟨_, _, _, _, stage⟩ := e
  cases stage with
  | created => rfl
  | completed accept =>
    rw [Json.required?_of_singleton (accepted accept rfl)]
    rfl

/-- The document of a ride event is not that of a confirmation event: it has no type. -/
theorem ConfirmationEvent.ofJson?_ride (byNumber : Bool) (e : RideEvent) : ofJson? byNumber e.toJson = none := by
  have none_of_stage (time request passenger vehicle : Option UInt64) :
      ofValues? time request passenger vehicle none = none := by
    unfold ofValues?
    split
    · contradiction
    · rfl
  obtain ⟨entries, written, absent, _⟩ := e.entries_toJson
  rw [written, ofJson?]
  simp only [Json.required?_of_nil absent, Option.bind_none, none_of_stage]

/-- A ride event is read from the named trees of an object. -/
lemma RideEvent.ofTree?_of_entries {named : List (String × Json.Tree)} (read : t.entries? = some named) :
    ofTree? t = ofValues? (Json.required? named "time" Json.Tree.word?)
      (Json.required? named "kind" RideStage.ofTree?) (Json.required? named "request" Json.Tree.word?)
      (Json.required? named "passenger" Json.Tree.word?) (Json.optional? named "vehicle" vehicleOfTree? none) := by
  cases t with
  | obj nodes =>
    rw [ofTree?, read, Option.bind_some]
    exact nofun
  | null | bool _ | num _ | str _ | arr _ => contradiction

lemma RideEvent.vehicleOfTree?_of_word {vehicle : VehicleId} (value : t.value? = some (.ofWord vehicle.val)) :
    vehicleOfTree? t = some (some vehicle) := by
  have word : t.word? = some vehicle.val := by rw [Json.Tree.word?, value, Option.bind_some, Json.word?_ofWord]
  rw [vehicleOfTree?, word]
  · rfl
  · rintro rfl
    exact absurd (Option.some.inj value) nofun

/-- The vehicle is read from the trees as it stands in the document, where it may be left out. -/
lemma RideEvent.optional?_vehicle {named : List (String × Json.Tree)} {entries : List (String × Json)}
    {vehicle : Option VehicleId} (stand : List.Forall₂ Json.Tree.Stands named entries)
    (written : Json.valuesOf entries "vehicle" = vehicle.toList.map fun vehicle => .ofWord vehicle.val) :
    Json.optional? named "vehicle" vehicleOfTree? none = some vehicle := by
  cases vehicle with
  | none =>
    have others := Json.valuesOf_of_stands stand "vehicle"
    rw [written] at others
    rw [Json.optional?, List.forall₂_nil_right_iff.mp others]
  | some vehicle =>
    obtain ⟨t, one, value⟩ := Json.valuesOf_singleton_of_stands stand written
    rw [Json.optional?, one]
    exact vehicleOfTree?_of_word value

lemma RideStage.ofTree?_of_name {stage : RideStage} (value : t.value? = some (.str stage.name)) :
    ofTree? t = some stage := by
  rw [ofTree?, value, Option.bind_some, Json.caseName?, Option.bind_some, ofName?_name]

/-- A ride event is read from any tree that stands for its document. -/
theorem RideEvent.ofTree?_of_value {e : RideEvent} (value : t.value? = some e.toJson) : ofTree? t = some e := by
  obtain ⟨entries, written, _, time, kind, request, passenger, vehicle⟩ := e.entries_toJson
  rw [written] at value
  obtain ⟨named, read, stand⟩ := Json.entries?_of_value value
  obtain ⟨kindTree, one, stage⟩ := Json.valuesOf_singleton_of_stands stand kind
  rw [ofTree?_of_entries read, Json.required?_word_of_stands stand time, Json.required?_of_singleton one,
    RideStage.ofTree?_of_name stage, Json.required?_word_of_stands stand request,
    Json.required?_word_of_stands stand passenger, optional?_vehicle stand vehicle]
  rfl

/-- An entry is read from any tree that stands for its document. -/
theorem LogEntry.ofTree?_of_value {entry : LogEntry} (value : t.value? = some entry.toJson) :
    ofTree? t = some entry := by
  rw [ofTree?, value, Option.bind_some]
  cases entry with
  | confirmation e => rw [toJson, ConfirmationEvent.ofJson?_toJson]
  | ride e =>
    rw [toJson, ConfirmationEvent.ofJson?_ride]
    exact congrArg (Option.map _) (RideEvent.ofTree?_of_value value)

lemma plain_ofWord (depth : Nat) (n : UInt64) : Json.Plain depth (.ofWord n) := by
  have below := n.toNat_lt
  exact .num (by omega) (by omega)

/-- The document of an entry is an object of texts, words and truth values. -/
theorem LogEntry.plain_toJson (entry : LogEntry) : Json.Plain Json.Tree.maxDepth entry.toJson := by
  cases entry with
  | confirmation e =>
    obtain ⟨time, request, passenger, vehicle, stage⟩ := e
    cases stage <;> refine .obj ?_ <;>
      simp only [List.cons_append, List.nil_append, List.forall_mem_cons, plain_ofWord, Json.Plain.str, Json.Plain.bool,
        List.not_mem_nil, false_implies, implies_true, and_self]
  | ride e =>
    obtain ⟨time, stage, request, passenger, vehicle⟩ := e
    cases vehicle <;> refine .obj ?_ <;>
      simp only [List.cons_append, List.nil_append, List.forall_mem_cons, plain_ofWord, Json.Plain.str,
        List.not_mem_nil, false_implies, implies_true, and_self]

/-- An entry reads back from the text of its document. -/
theorem LogEntry.parse?_render (entry : LogEntry) : parse? entry.toJson.render = some entry := by
  obtain ⟨t, read, value⟩ := entry.plain_toJson.parse
  rw [parse?, read, Option.bind_some, ofTree?_of_value value]

end Documents

/-! ## The log -/

/-- Lines that each end in a line break are the parts between the line breaks of the text. -/
lemma splitOn_lines {lines : List (List Char)} (whole : ∀ line ∈ lines, '\n' ∉ line) :
    (lines.flatMap (· ++ ['\n'])).splitOn '\n' = lines ++ [[]] := by
  induction lines with
  | nil => rfl
  | cons line lines ih =>
    obtain ⟨first, others⟩ := List.forall_mem_cons.mp whole
    rw [List.flatMap_cons, List.append_assoc, List.singleton_append, List.splitOn_append_cons_self_of_not_mem first,
      ih others]
    rfl

/-- The text of a log has one line for each entry, in order, and each line reads back as its entry. -/
theorem Log.jsonLines_read (log : Log) :
    ∃ lines : List (List Char),
      log.jsonLines.toList = lines.flatMap (· ++ ['\n']) ∧
      (∀ line ∈ lines, '\n' ∉ line) ∧
      log.jsonLines.toList.splitOn '\n' = lines ++ [[]] ∧
      lines.length = log.size ∧
      lines.map (fun line => LogEntry.parse? (String.ofList line)) = log.toList.map some := by
  let lines := log.toList.map fun entry => Json.chars entry.toJson
  have text : log.jsonLines.toList = lines.flatMap (· ++ ['\n']) := by
    rw [jsonLines, String.toList_ofList, List.flatMap_map]
  have whole : ∀ line ∈ lines, '\n' ∉ line := by
    intro line member
    obtain ⟨entry, _, rfl⟩ := List.mem_map.mp member
    exact entry.plain_toJson.newline_not_mem
  refine ⟨lines, text, whole, ?_, ?_, ?_⟩
  · rw [text, splitOn_lines whole]
  · exact List.length_map ..
  · rw [List.map_map]
    exact List.map_congr_left fun entry _ => entry.parse?_render

end RideDispatch

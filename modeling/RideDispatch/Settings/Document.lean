import RideDispatch.Json.Tree
import RideDispatch.Settings

/-!
# Settings as documents

`Settings.parse` reads settings from a JSON document: an object whose missing entries take their
defaults and whose unknown entries do not count, or an array of the values in the order of
`Settings.entryNames`. A goal of an unknown name is reported as such before anything else.
-/

namespace RideDispatch.Settings

/-- The names of the settings, in the order in which an array lists their values. -/
def entryNames : List String :=
  ["confirmation_delay_secs", "nearest_vehicles_limit", "nearest_requests_limit",
    "reoptimization_step_secs", "goal", "strategy", "veh_planning_horizon_undersupply_secs",
    "veh_planning_horizon_oversupply_secs", "wait_time_weight", "zone_resolution"]

/-- Reads the entry of a name, or takes the default where there is none. -/
def entryOr {α : Type} (entries : List (String × Json)) (name : String)
    (read? : Json → Option α) (default : α) : Option α :=
  match Json.lookup? entries name with
  | none => some default
  | some value => read? value

/-- The goal that a text names. -/
def goalOfJson? (j : Json) : Option Goal :=
  match j.text?.map Goal.parse with
  | some (.ok goal) => some goal
  | _ => none

/-- The strategy that a case name names; of entries with one name the last one counts. -/
def strategyOfJson? (j : Json) : Option Strategy :=
  let case := match j with
    | .obj entries => Json.obj (Json.lastEntries entries)
    | other => other
  case.caseName?.bind Strategy.ofName?

/-- The settings with the given entries. -/
def ofEntries? (entries : List (String × Json)) : Option Settings :=
  let standard : Settings := {}
  match entryOr entries "confirmation_delay_secs" Json.word? standard.confirmationDelaySecs,
    entryOr entries "nearest_vehicles_limit" (fun j => j.word?.map UInt64.toNat)
      standard.nearestVehiclesLimit,
    entryOr entries "nearest_requests_limit" (fun j => j.word?.map UInt64.toNat)
      standard.nearestRequestsLimit,
    entryOr entries "reoptimization_step_secs" Json.word? standard.reoptimizationStepSecs,
    entryOr entries "goal" goalOfJson? standard.goal,
    entryOr entries "strategy" strategyOfJson? standard.strategy,
    entryOr entries "veh_planning_horizon_undersupply_secs" Json.word?
      standard.undersupplyHorizonSecs,
    entryOr entries "veh_planning_horizon_oversupply_secs" Json.word?
      standard.oversupplyHorizonSecs,
    entryOr entries "wait_time_weight" Json.double? standard.waitTimeWeight,
    entryOr entries "zone_resolution" Json.byte? standard.zoneResolution with
  | some delay, some vehicles, some requests, some step, some goal, some strategy, some scarce,
    some ample, some weight, some resolution =>
    some ⟨delay, vehicles, requests, step, goal, strategy, scarce, ample, weight, resolution⟩
  | _, _, _, _, _, _, _, _, _, _ => none

/-- The settings that a JSON value describes. -/
def ofJson? : Json → Option Settings
  | .obj entries => ofEntries? entries
  | .arr items =>
    if items.length ≤ entryNames.length then ofEntries? (entryNames.zip items) else none
  | _ => none

/-- The text of the entry `goal` of an object. -/
def goalText? : Json → Option String
  | .obj entries => (Json.lookup? entries "goal").bind Json.text?
  | _ => none

/-- Reads and validates the settings of a document. -/
def parse (text : String) : Except SettingsError Settings := do
  match Json.parse? text with
  | none => throw .unreadable
  | some document =>
    if let some word := goalText? document then
      let _ ← Goal.parse word
    match ofJson? document with
    | none => throw .unreadable
    | some settings =>
      settings.validate
      return settings

end RideDispatch.Settings

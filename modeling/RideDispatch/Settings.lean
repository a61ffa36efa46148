import RideDispatch.Decimal.Shortest
import RideDispatch.Text.Blank
import RideDispatch.Time

/-!
# Dispatch settings

`Settings` are the knobs of the dispatcher, with a default for each. `Settings.validate` gives the
first fault of settings that cannot be used, and `SettingsError.message` words it.
-/

namespace RideDispatch

/-- What the rule-based strategy aims at, which decides which side of a pairing moves first. -/
inductive Goal where
  /-- Each request takes the vehicle that reaches it first. -/
  | minWaitTime
  /-- Each idle vehicle takes the request that it reaches first. -/
  | minPickupTime
  /-- Vehicles move first only while urgent requests outnumber idle vehicles. -/
  | demandSupplyEquilibrium
deriving DecidableEq, Repr, Inhabited

/-- How requests and vehicles are paired in a cycle. -/
inductive Strategy where
  /-- One pairing after the other, as the goal directs. -/
  | ruleBased
  /-- All pairings at once, as a cheapest assignment. -/
  | assignment
deriving DecidableEq, Repr, Inhabited

/-- The settings of a dispatcher. Durations are in seconds. -/
structure Settings where
  /-- The time a driver takes to confirm; zero means that every driver accepts at once. -/
  confirmationDelaySecs : UInt64 := 0
  /-- The number of vehicles that are considered for one request. -/
  nearestVehiclesLimit : Nat := 30
  /-- The number of requests that are considered for one vehicle. -/
  nearestRequestsLimit : Nat := 30
  /-- The time between two dispatch cycles. -/
  reoptimizationStepSecs : UInt64 := 1
  goal : Goal := .demandSupplyEquilibrium
  strategy : Strategy := .ruleBased
  /-- How far ahead a busy vehicle counts as available while vehicles are scarce. -/
  undersupplyHorizonSecs : UInt64 := 30
  /-- How far ahead a busy vehicle counts as available otherwise. -/
  oversupplyHorizonSecs : UInt64 := 99999
  /-- What a second of waiting costs in seconds of driving. -/
  waitTimeWeight : Float := 1.0
  /-- The resolution of the grid of zones. -/
  zoneResolution : UInt8 := 9

/-- The resolution of a grid of zones; each step divides a zone by seven. -/
abbrev Resolution := Fin 16

/-- A number of candidates that the settings limit. -/
inductive CandidateLimit where
  | nearestVehicles
  | nearestRequests
deriving DecidableEq, Repr

/-- The name of the setting of a limit. -/
def CandidateLimit.name : CandidateLimit → String
  | nearestVehicles => "nearest_vehicles_limit"
  | nearestRequests => "nearest_requests_limit"

/-- Why settings cannot be used. -/
inductive SettingsError where
  | unknownGoal (name : String)
  | zeroReoptimizationStep
  | zeroLimit (limit : CandidateLimit)
  | invalidWaitWeight (weight : Float)
  | invalidResolution (resolution : UInt8)
  /-- The document is no JSON text or does not describe settings. -/
  | unreadable

/-- The wording of a fault in the settings. -/
def SettingsError.message : SettingsError → String
  | unknownGoal name =>
    "unknown dispatch goal \x60" ++ name ++
      "\x60 (expected MIN_WAIT_TIME, MIN_PICKUP_TIME or DEMAND_SUPPLY_EQUIL)"
  | zeroReoptimizationStep => "reoptimization step must be at least one second"
  | zeroLimit limit => limit.name ++ " must be greater than zero"
  | invalidWaitWeight weight =>
    "wait time weight must be finite and non-negative, got " ++ Decimal.render weight
  | invalidResolution resolution => "invalid H3 zone resolution " ++ toString resolution
  | unreadable => "failed to parse dispatch config"

namespace Goal

/-- The name of a goal in documents. -/
def name : Goal → String
  | minWaitTime => "MIN_WAIT_TIME"
  | minPickupTime => "MIN_PICKUP_TIME"
  | demandSupplyEquilibrium => "DEMAND_SUPPLY_EQUIL"

/-- The goal with the given name, apart from blanks at its ends. -/
def parse (text : String) : Except SettingsError Goal :=
  let word := Text.trim text
  if word = minWaitTime.name then .ok minWaitTime
  else if word = minPickupTime.name then .ok minPickupTime
  else if word = demandSupplyEquilibrium.name then .ok demandSupplyEquilibrium
  else .error (.unknownGoal word)

end Goal

namespace Strategy

/-- The name of a strategy in documents and reports. -/
def name : Strategy → String
  | ruleBased => "rule_based"
  | assignment => "assignment"

/-- The strategy with exactly the given name. -/
def ofName? (text : String) : Option Strategy :=
  if text = ruleBased.name then some ruleBased
  else if text = assignment.name then some assignment
  else none

end Strategy

namespace Settings

/-- The resolution of the zones, if there is a grid of that resolution. -/
def resolution (s : Settings) : Except SettingsError Resolution :=
  if h : s.zoneResolution.toNat < 16 then .ok ⟨s.zoneResolution.toNat, h⟩
  else .error (.invalidResolution s.zoneResolution)

/-- Accepts settings that a dispatcher can use, or gives their first fault. -/
def validate (s : Settings) : Except SettingsError Unit :=
  if s.reoptimizationStepSecs = 0 then .error .zeroReoptimizationStep
  else if s.nearestVehiclesLimit = 0 then .error (.zeroLimit .nearestVehicles)
  else if s.nearestRequestsLimit = 0 then .error (.zeroLimit .nearestRequests)
  else if !s.waitTimeWeight.isFinite || s.waitTimeWeight < 0.0 then
    .error (.invalidWaitWeight s.waitTimeWeight)
  else s.resolution.map fun _ => ()

/-- The time a driver takes to confirm. -/
def confirmationDelay (s : Settings) : Time := Time.ofSecs s.confirmationDelaySecs

/-- How far ahead a cycle looks for vehicles while idle ones are scarce. -/
def undersupplyHorizon (s : Settings) : Time := Time.ofSecs s.undersupplyHorizonSecs

/-- How far ahead a cycle looks for vehicles while idle ones are ample. -/
def oversupplyHorizon (s : Settings) : Time := Time.ofSecs s.oversupplyHorizonSecs

/-- The time between two dispatch cycles. -/
def reoptimizationStep (s : Settings) : Time := Time.ofSecs s.reoptimizationStepSecs

end Settings

end RideDispatch

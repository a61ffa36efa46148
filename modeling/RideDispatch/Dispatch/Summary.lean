import RideDispatch.Decimal.Fixed
import RideDispatch.Dispatch.Snapshot

/-!
# Summaries of a fleet

When requests stay unmatched it helps to know what the fleet is doing. `FleetSummary.collect`
counts the vehicles by what they do and gathers how long confirmations are still open and how long
idle vehicles would drive to the unmatched requests; `FleetSummary.render` words it.
-/

namespace RideDispatch

/-- The least, mean and greatest value of a sample; zeros for an empty one. -/
structure SampleStats where
  least : Float := 0.0
  mean : Float := 0.0
  greatest : Float := 0.0

namespace SampleStats

/-- The statistics of a sample. -/
def ofList : List Float → SampleStats
  | [] => {}
  | x :: rest =>
    let least := rest.foldl (fun a b => if b < a then b else a) x
    let greatest := rest.foldl (fun a b => if a < b then b else a) x
    ⟨least, (x :: rest).foldl (· + ·) 0.0 / Float.ofNat (rest.length + 1), greatest⟩

/-- The statistics in words, with one decimal place. -/
def render (s : SampleStats) : String :=
  "\x7bavg: " ++ Decimal.renderFixed s.mean 1 ++ ", min: " ++ Decimal.renderFixed s.least 1 ++
    ", max: " ++ Decimal.renderFixed s.greatest 1 ++ "\x7d"

end SampleStats

/-- What a vehicle is doing, as far as a summary tells vehicles apart. -/
inductive VehicleActivity where
  | offline
  /-- The driver is asked; the confirmation is due after so many seconds. -/
  | awaiting (dueSecs : Float)
  /-- The vehicle is free soon enough, at a place. -/
  | idle (place : Place)
  | driving

/-- The vehicles of a fleet by what they do. -/
structure FleetSummary where
  offline : Nat
  driving : Nat
  awaiting : Nat
  idle : Nat
  /-- The seconds until the open confirmations are due. -/
  dueSecs : SampleStats
  /-- The seconds that idle vehicles would drive to the unmatched requests. -/
  etaSecs : SampleStats

namespace FleetSummary

/-- What a vehicle is doing. -/
def activity {φ : Type} [Fleet φ] (fleet : φ) (registry : Registry) (now horizon : Time)
    (vehicle : VehicleId) : VehicleActivity :=
  if Fleet.isOutOfService fleet vehicle now then .offline
  else
    match registry.ofVehicle? vehicle with
    | some c => .awaiting (c.dueAt - now).toSecs
    | none =>
      match Fleet.earliestIdleness fleet vehicle now with
      | none => .driving
      | some idleness =>
        if idleness.time ≤ now + horizon then .idle idleness.place else .driving

/-- What the vehicles of a fleet are doing. -/
def activities {φ : Type} [Fleet φ] (fleet : φ) (registry : Registry) (now horizon : Time) :
    List VehicleActivity :=
  (Fleet.vehicleIds fleet).map (activity fleet registry now horizon)

/-- The places of the idle vehicles. -/
def idlePlaces (activities : List VehicleActivity) : List Place :=
  activities.filterMap fun | .idle place => some place | _ => none

/-- The seconds that a vehicle would drive to each request that it can reach. -/
def etas (router : Router) (unmatched : List Place) (now : Time) (place : Place) : List Float :=
  (router.routesFrom place unmatched now).filterMap fun route? =>
    route?.map fun route => route.travelTime.toSecs

/-- The summary of what vehicles are doing. -/
def ofActivities (router : Router) (unmatched : List Place) (now : Time)
    (activities : List VehicleActivity) : FleetSummary where
  offline := activities.countP fun | .offline => true | _ => false
  driving := activities.countP fun | .driving => true | _ => false
  awaiting := activities.countP fun | .awaiting _ => true | _ => false
  idle := (idlePlaces activities).length
  dueSecs := .ofList (activities.filterMap fun | .awaiting due => some due | _ => none)
  etaSecs := .ofList ((idlePlaces activities).flatMap (etas router unmatched now))

/-- The summary of a fleet. Vehicles that are free within the horizon count as idle. -/
def collect {φ : Type} [Fleet φ] (fleet : φ) (registry : Registry) (router : Router)
    (unmatched : List Place) (now horizon : Time) : FleetSummary :=
  ofActivities router unmatched now (activities fleet registry now horizon)

/-- Whether a search for a route from an idle vehicle to an unmatched request leaves the
network. -/
def strays {φ : Type} [Fleet φ] (fleet : φ) (registry : Registry) (router : Router)
    (unmatched : List Place) (now horizon : Time) : Bool :=
  (idlePlaces (activities fleet registry now horizon)).any fun place =>
    router.straysFrom place unmatched

/-- The number of vehicles in service. -/
def online (s : FleetSummary) : Nat := s.driving + s.awaiting + s.idle

/-- A count as a part of a whole, with the percentage. -/
def share (count total : Nat) : String :=
  let percent := if total = 0 then 0.0 else Float.ofNat count * 100.0 / Float.ofNat total
  toString count ++ "/" ++ toString total ++ " (" ++ Decimal.renderFixed percent 1 ++ "%)"

/-- The summary in words. -/
def render (s : FleetSummary) : String :=
  let total := s.offline + s.online
  "\x7boffline: " ++ share s.offline total ++ ", online: " ++ share s.online total ++
    ", driving: " ++ share s.driving total ++ ", waiting_conf: " ++ share s.awaiting total ++
    ", waiting_conf_due_secs: " ++ s.dueSecs.render ++ ", idle: " ++ share s.idle total ++
    ", eta_to_idle_vehicles: " ++ s.etaSecs.render ++ "\x7d"

end FleetSummary

end RideDispatch

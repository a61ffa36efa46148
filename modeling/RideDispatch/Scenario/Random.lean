import RideDispatch.Random.Stream
import RideDispatch.Scenario

/-!
# Random scenarios

`Scenario.randomFleet` puts vehicles on random links and `Scenario.randomDemand` draws passengers
who travel between two distinct links. Both depend on a seed only, and give nothing where the
network has too few links.
-/

namespace RideDispatch.Scenario

open RideDispatch.Random (Stream)

/-- Calls a function on a stream for each number of a list and gathers the results. -/
def drawAll {α : Type} (one : Nat → Stream → α × Stream) : List Nat → Stream → List α
  | [], _ => []
  | number :: rest, s =>
    let (a, s) := one number s
    a :: drawAll one rest s

/-- The element of an array with a number below its size. -/
def drawnLink (links : Array LinkId) (number : Nat) : LinkId := links.getD number ⟨0⟩

/-- A vehicle on a random link, in service from the start for a span of time. -/
def randomVehicle (links : Array LinkId) (service : Time) (number : Nat) (s : Stream) :
    VehicleSpec × Stream :=
  let (link, s) := s.below links.size
  (⟨⟨number.toUInt64⟩, drawnLink links link, 0, service⟩, s)

/-- A fleet of vehicles on random links. -/
def randomFleet (network : Network) (count : Nat) (serviceSecs seed : UInt64) :
    List VehicleSpec :=
  let links := network.linkIds.toArray
  if links.isEmpty then []
  else
    drawAll (randomVehicle links (Time.ofSecs serviceSecs)) (List.range count)
      (Stream.ofSeed (seed + 0x5eedf1ee7))

/-- A passenger who travels between two random links. The second is found by a shift that is less
than the number of links and not zero, so it differs from the first. -/
def randomPassenger (links : Array LinkId) (window : Time) (number : Nat) (s : Stream) :
    PassengerSpec × Stream :=
  let (origin, s) := s.below links.size
  let (shift, s) := s.below (links.size - 1)
  let target := (origin + (shift + 1)) % links.size
  let (departure, s) := s.below (max window ⟨1⟩).toNat
  (⟨⟨number.toUInt64⟩, drawnLink links origin, drawnLink links target, Time.ofNat departure⟩, s)

/-- Whether a passenger comes no later than another: by departure, then by identity. -/
def departsBefore (a b : PassengerSpec) : Bool :=
  a.departure < b.departure || a.departure = b.departure && a.id ≤ b.id

/-- Passengers who depart at random moments within a window, in the order of their departures. -/
def randomDemand (network : Network) (count : Nat) (windowSecs seed : UInt64) :
    List PassengerSpec :=
  let links := network.linkIds.toArray
  if links.size < 2 then []
  else
    (drawAll (randomPassenger links (Time.ofSecs windowSecs)) (List.range count)
      (Stream.ofSeed (seed + 0xdead5eed))).mergeSort departsBefore

end RideDispatch.Scenario

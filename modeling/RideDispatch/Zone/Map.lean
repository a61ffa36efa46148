import RideDispatch.Globe.Projection

/-!
# Members by zone

A `ZoneMap` knows the place of each member and gathers the members by the cell of the globe's grid
in which they are. `ZoneMap.nearest` gives the members nearest to a coordinate: it takes ever
larger regions around it until enough members are found, one ring more for those just outside, and
ranks what it found by distance. Where no more are eligible than are asked for, all of them are
given, in the order of their keys.
-/

namespace RideDispatch

/-- The place of a double in the order of all doubles, in which negative zero comes before zero and
what is not a number before all numbers: the distance of two opposite points can come out so, by the
root of a difference that rounding leaves below zero, and such a root counts as negative. -/
def totalOrderKey (x : Float) : Int :=
  let bits := x.toBits.toNat
  if x.isNaN then -9223372036854775808
  else if bits < 9223372036854775808 then bits
  else 9223372036854775807 - bits

/-- A member of a zone map: where it is, and in which cell. -/
structure ZoneMember where
  cell : Globe.Cell
  place : Place

/-- Members by key and by cell. -/
structure ZoneMap (κ : Type) [Ord κ] [Std.TransOrd κ] where
  resolution : Resolution
  members : Std.ExtTreeMap κ ZoneMember
  /-- The keys of the members in each cell, in the order in which they came. Cells without members have
  no bucket. -/
  buckets : Std.ExtTreeMap Globe.Cell (List κ)

namespace ZoneMap

variable {κ : Type} [Ord κ] [Std.TransOrd κ]

/-- A map without members. -/
def empty (resolution : Resolution) : ZoneMap κ := ⟨resolution, ∅, ∅⟩

/-- The buckets without a key in one of the cells. -/
def detach (buckets : Std.ExtTreeMap Globe.Cell (List κ)) (key : κ) (cell : Globe.Cell) :
    Std.ExtTreeMap Globe.Cell (List κ) :=
  match buckets[cell]? with
  | none => buckets
  | some keys =>
    let others := keys.filter fun k => compare k key ≠ .eq
    if others.isEmpty then buckets.erase cell else buckets.insert cell others

/-- The buckets with one more key in one of the cells. -/
def attach (buckets : Std.ExtTreeMap Globe.Cell (List κ)) (key : κ) (cell : Globe.Cell) :
    Std.ExtTreeMap Globe.Cell (List κ) :=
  buckets.insert cell (buckets[cell]?.getD [] ++ [key])

/-- Adds a member or moves it. A move within a cell leaves the buckets as they are. -/
def insert (m : ZoneMap κ) (key : κ) (place : Place) : ZoneMap κ :=
  let cell := Globe.cellOf m.resolution place.coord
  let buckets := match m.members[key]? with
    | none => attach m.buckets key cell
    | some old =>
      if old.cell = cell then m.buckets else attach (detach m.buckets key old.cell) key cell
  { m with members := m.members.insert key ⟨cell, place⟩, buckets := buckets }

/-- Removes a member. -/
def erase (m : ZoneMap κ) (key : κ) : ZoneMap κ :=
  match m.members[key]? with
  | none => m
  | some old =>
    { m with members := m.members.erase key, buckets := detach m.buckets key old.cell }

/-- Whether a key has a member. -/
def contains (m : ZoneMap κ) (key : κ) : Bool := m.members.contains key

/-- The place of a member. -/
def place? (m : ZoneMap κ) (key : κ) : Option Place := m.members[key]?.map ZoneMember.place

/-- The keys of all members, in ascending order. -/
def keys (m : ZoneMap κ) : List κ := m.members.keys

/-- The number of members. -/
def size (m : ZoneMap κ) : Nat := m.members.size

/-- The eligible members in the cells within a number of steps of a cell. -/
def within (m : ZoneMap κ) (eligible : κ → Bool) (origin : Globe.Cell) (radius : Nat) : List κ :=
  let region := Globe.Region.ofRadius (Globe.Lattice.ofResolution m.resolution) origin radius
  m.buckets.toList.flatMap fun bucket =>
    if region.contains bucket.1 then bucket.2.filter eligible else []

/-- The radii of the regions that are searched before all members are looked at. -/
def radii : List Nat := [1, 2, 4, 8, 16, 32, 64]

/-- The members among which the nearest ones are chosen: those of the first region that holds
enough and of one ring more, or all. -/
def candidates (m : ZoneMap κ) (eligible : κ → Bool) (origin : Globe.Cell) (limit : Nat) :
    List κ :=
  match radii.find? fun radius => limit ≤ (m.within eligible origin radius).length with
  | some radius => m.within eligible origin (radius + 1)
  | none => m.keys.filter eligible

/-- Whether a ranked key comes no later than another: by distance, then by key. -/
def ranksBefore (a b : Int × κ) : Bool :=
  a.1 < b.1 || a.1 = b.1 && (compare a.2 b.2).isLE

/-- The first `limit` of the given members in the order of their distance to a coordinate. -/
def rank (m : ZoneMap κ) (coord : Coordinate) (keys : List κ) (limit : Nat) : List κ :=
  let ranked := keys.filterMap fun key =>
    (m.place? key).map fun place => (totalOrderKey (coord.distanceKm place.coord), key)
  ((ranked.mergeSort ranksBefore).take limit).map (·.2)

/-- At most `limit` eligible members, the nearest to a coordinate if there are more. -/
def nearest (m : ZoneMap κ) (coord : Coordinate) (limit : Nat) (eligible : κ → Bool) : List κ :=
  let all := m.keys.filter eligible
  if all.length ≤ limit then all
  else
    m.rank coord (m.candidates eligible (Globe.cellOf m.resolution coord) limit) limit

end ZoneMap

end RideDispatch

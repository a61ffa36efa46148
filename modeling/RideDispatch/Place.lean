import RideDispatch.Id

/-!
# Places

A place of the road network is a link together with the coordinate of the link's far end. A
coordinate is kept in radians; degrees are what people write, so `Coordinate.ofDegrees?` reads
them and `Coordinate.lat` and `Coordinate.lng` give them back. `Coordinate.distanceKm` is the
great-circle distance by which candidates are ranked.
-/

namespace RideDispatch

/-- The ratio of a circle's circumference to its diameter. -/
def pi : Float := 3.14159265358979323846

/-- An angle in degrees, as radians. -/
def radiansOfDegrees (deg : Float) : Float := deg * (pi / 180.0)

/-- An angle in radians, as degrees. -/
def degreesOfRadians (rad : Float) : Float := rad * 57.2957795130823208767981548141051703

/-- A point on the globe: latitude and longitude in radians. -/
structure Coordinate where
  latRad : Float
  lngRad : Float

namespace Coordinate

/-- The coordinate at a latitude and longitude in degrees, where both are finite numbers. -/
def ofDegrees? (lat lng : Float) : Option Coordinate :=
  if lat.isFinite && lng.isFinite then some ⟨radiansOfDegrees lat, radiansOfDegrees lng⟩ else none

/-- The latitude in degrees. -/
def lat (c : Coordinate) : Float := degreesOfRadians c.latRad

/-- The longitude in degrees. -/
def lng (c : Coordinate) : Float := degreesOfRadians c.lngRad

/-- The mean radius of the earth in kilometres. -/
def earthRadiusKm : Float := 6371.0

/-- The great-circle distance in kilometres, by the haversine formula on the angles in degrees. -/
def distanceKm (a b : Coordinate) : Float :=
  let lat₁ := radiansOfDegrees a.lat
  let lng₁ := radiansOfDegrees a.lng
  let lat₂ := radiansOfDegrees b.lat
  let lng₂ := radiansOfDegrees b.lng
  let sinLat := ((lat₂ - lat₁) * 0.5).sin
  let sinLng := ((lng₂ - lng₁) * 0.5).sin
  let h := sinLat * sinLat + lat₁.cos * lat₂.cos * sinLng * sinLng
  let c := 2.0 * Float.atan2 h.sqrt (1.0 - h).sqrt
  earthRadiusKm * c

end Coordinate

/-- A place in the road network: a link, and the coordinate where whoever is on it stands. -/
structure Place where
  link : LinkId
  coord : Coordinate

namespace Place

/-- A place for trying things out without a road network: each step of the link's number leads a
thousandth of a degree further to the north and to the east. -/
def onDiagonal (n : UInt64) : Place :=
  let offset := n.toFloat * 0.001
  ⟨⟨n⟩, radiansOfDegrees (52.52 + offset), radiansOfDegrees (13.40 + offset)⟩

end Place

end RideDispatch

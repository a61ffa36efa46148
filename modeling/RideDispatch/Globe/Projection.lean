import RideDispatch.Globe.Lineage
import RideDispatch.Globe.Region
import RideDispatch.Place

/-!
# From coordinates to cells

A coordinate is projected from the centre of the globe onto the plane of the nearest face, and its
cell is the lattice point nearest to it there. The nearest face goes by the place of the coordinate
in space, the direction on it by the difference of longitudes; where a longitude is so great that
the difference is inexact, the point may lie far beyond the face and then goes by its lineage.
-/

namespace RideDispatch.Globe

/-- A point of space. -/
structure Vector where
  x : Float
  y : Float
  z : Float

/-- The point of the unit sphere at a latitude and longitude in radians. -/
def Vector.ofAngles (lat lng : Float) : Vector :=
  ⟨lng.cos * lat.cos, lng.sin * lat.cos, lat.sin⟩

/-- The square of the distance between two points. -/
def Vector.squaredDistance (v w : Vector) : Float :=
  (v.x - w.x) * (v.x - w.x) + (v.y - w.y) * (v.y - w.y) + (v.z - w.z) * (v.z - w.z)

/-- The middles of the faces. -/
def faceCentres : Array Vector := faceSites.map fun site => Vector.ofAngles site.lat site.lng

/-- The face whose middle is nearest to a point, with the square of the distance. -/
def nearestFace (v : Vector) : Nat × Float :=
  ((List.range faceCentres.size).zip faceCentres.toList).foldl
    (fun best face =>
      let distance := v.squaredDistance face.2
      if distance < best.2 then (face.1, distance) else best)
    (0, 5.0)

/-- The direction from a place to another, clockwise from north; all angles are in radians. -/
def azimuth (lat₁ lng₁ lat₂ lng₂ : Float) : Float :=
  Float.atan2 (lat₂.cos * (lng₂ - lng₁).sin)
    (lat₁.cos * lat₂.sin - lat₁.sin * lat₂.cos * (lng₂ - lng₁).cos)

/-- The distance in the plane of a face between two lattice points of resolution zero. -/
def unitLength : Float := 0.38196601125010500003

/-- The angle by which the lattices of odd resolutions are turned. -/
def oddTurn : Float := 0.333473172251832115336082755351

/-- How many times smaller the lattice of a resolution is than that of resolution zero. -/
def fineness (r : Resolution) : Float :=
  let whole := Float.ofNat (Nat.pow 7 (r.val / 2))
  if r.val % 2 = 0 then whole else whole * (7.0 : Float).sqrt

/-- The lattice point nearest to a point of the plane. -/
def nearestPoint (x y : Float) : Point :=
  let b := 2.0 * y / (3.0 : Float).sqrt
  let a := x + b * 0.5
  let q := a.round
  let r := (-b).round
  let s := (b - a).round
  let dq := (q - a).abs
  let dr := (r + b).abs
  let ds := (s - (b - a)).abs
  let whole (f : Float) : Int := f.toInt64.toInt
  if dr < dq && ds < dq then ⟨-(whole r) - whole s, -(whole r)⟩
  else if ds < dr then ⟨whole q, whole q + whole s⟩
  else ⟨whole q, -(whole r)⟩

/-- The cell in which a coordinate lies. -/
def cellOf (r : Resolution) (c : Coordinate) : Cell :=
  let (face, distance) := nearestFace (Vector.ofAngles c.latRad c.lngRad)
  let site := faceSites.getD face ⟨0.0, 0.0, 0.0⟩
  let angle := (1.0 - distance / 2.0).acos
  let point :=
    if angle < 1e-16 then ⟨0, 0⟩
    else
      let radius := angle.tan / unitLength * fineness r
      let turned := site.azimuth - azimuth site.lat site.lng c.latRad c.lngRad
      let theta := if r.val % 2 = 0 then turned else turned - oddTurn
      nearestPoint (radius * theta.cos) (radius * theta.sin)
  let lattice := Lattice.ofResolution r
  Cell.settle lattice ⟨face, lattice.turned face (Lineage.ofPoint r.val point) point⟩

end RideDispatch.Globe

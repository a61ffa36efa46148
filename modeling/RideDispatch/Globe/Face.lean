import RideDispatch.Globe.Lattice

/-!
# The faces of the globe

The globe is laid on an icosahedron of twenty faces. Each face has three corners, numbered
counter-clockwise, and edge `t` runs from corner `t` to the next one. `acrossEdge` tells which face
lies beyond an edge and which of its edges it is there; `cross` carries the lattice of a face on
into its neighbour, as if the two lay in one plane.
-/

namespace RideDispatch.Globe

/-- Where a face lies: the middle of it in radians, and the direction from there to its first
corner, clockwise from north. -/
structure FaceSite where
  lat : Float
  lng : Float
  azimuth : Float

/-- The twenty faces. -/
def faceSites : Array FaceSite :=
  #[
    ⟨0.803582649718989942, 1.248397419617396099, 5.619958268523939882⟩,
    ⟨1.307747883455638156, 2.536945009877921159, 5.760339081714187279⟩,
    ⟨1.054751253523952054, -1.347517358900396623, 0.780213654393430055⟩,
    ⟨0.600191595538186799, -0.450603909469755746, 0.430469363979999913⟩,
    ⟨0.491715428198773866, 0.401988202911306943, 6.130269123335111400⟩,
    ⟨0.172745327415618701, 1.678146885280433686, 2.692877706530642877⟩,
    ⟨0.605929321571350690, 2.953923329812411617, 2.982963003477243874⟩,
    ⟨0.427370518328979641, -1.888876200336285401, 3.532912002790141181⟩,
    ⟨-0.079066118549212831, -0.733429513380867741, 3.494305004259568154⟩,
    ⟨-0.230961644455383637, 0.506495587332349035, 3.003214169499538391⟩,
    ⟨0.079066118549212831, 2.408163140208925497, 5.930472956509811562⟩,
    ⟨0.230961644455383637, -2.635097066257444203, 0.138378484090254847⟩,
    ⟨-0.172745327415618701, -1.463445768309359553, 0.448714947059150361⟩,
    ⟨-0.605929321571350690, -0.187669323777381622, 0.158629650112549365⟩,
    ⟨-0.427370518328979641, 1.252716453253507838, 5.891865957979238535⟩,
    ⟨-0.600191595538186799, 2.690988744120037492, 2.711123289609793325⟩,
    ⟨-0.491715428198773866, -2.739604450678486295, 3.294508837434268316⟩,
    ⟨-0.803582649718989942, -1.893195233972397139, 3.804819692245439833⟩,
    ⟨-1.307747883455638156, -0.604647643711872080, 3.664438879055192436⟩,
    ⟨-1.054751253523952054, 1.794075294689396615, 2.361378999196363184⟩
  ]

/-- Beyond each edge of each face: the face there, and the number that the edge has on it. -/
def edgeTable : Array (Array (Nat × Nat)) :=
  #[
    #[(4, 2), (5, 1), (1, 0)],
    #[(0, 2), (6, 1), (2, 0)],
    #[(1, 2), (7, 1), (3, 0)],
    #[(2, 2), (8, 1), (4, 0)],
    #[(3, 2), (9, 1), (0, 0)],
    #[(10, 0), (0, 1), (14, 2)],
    #[(11, 0), (1, 1), (10, 2)],
    #[(12, 0), (2, 1), (11, 2)],
    #[(13, 0), (3, 1), (12, 2)],
    #[(14, 0), (4, 1), (13, 2)],
    #[(5, 0), (15, 1), (6, 2)],
    #[(6, 0), (16, 1), (7, 2)],
    #[(7, 0), (17, 1), (8, 2)],
    #[(8, 0), (18, 1), (9, 2)],
    #[(9, 0), (19, 1), (5, 2)],
    #[(16, 2), (10, 1), (19, 0)],
    #[(17, 2), (11, 1), (15, 0)],
    #[(18, 2), (12, 1), (16, 0)],
    #[(19, 2), (13, 1), (17, 0)],
    #[(15, 2), (14, 1), (18, 0)]
  ]

/-- The face beyond an edge, and the number of the edge there. -/
def acrossEdge (face edge : Nat) : Nat × Nat := (edgeTable.getD face #[]).getD edge (face, edge)

/-- Crossing an edge and crossing it back leads to the face one came from. -/
theorem acrossEdge_acrossEdge : ∀ face < 20, ∀ edge < 3,
    acrossEdge (acrossEdge face edge).1 (acrossEdge face edge).2 = (face, edge) := by
  decide

/-- A point in the lattice of a face, as a point in the lattice of the face beyond an edge. -/
def cross (l : Lattice) (face edge : Nat) (p : Point) : Nat × Point :=
  let (beyond, there) := acrossEdge face edge
  (beyond, -(p.turns ((there + 3 - edge) % 3)) - l.corner.turns ((there + 2) % 3))

end RideDispatch.Globe

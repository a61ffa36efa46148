import Std.Data.ExtTreeMap

/-!
# Identities

Requests, passengers, vehicles and road links are numbered by 64-bit words of their own. An
`Id` carries the sort of thing it names in its type, so a vehicle cannot be taken for a request.
Identities are ordered by their numbers, which makes them keys of `Std.ExtTreeMap`.
-/

namespace RideDispatch

/-- The sorts of things that carry an identity. -/
inductive Entity where
  | request
  | passenger
  | vehicle
  | link
deriving DecidableEq, Repr

/-- The word that introduces an identity in text. -/
def Entity.word : Entity → String
  | request => "request"
  | passenger => "passenger"
  | vehicle => "vehicle"
  | link => "link"

/-- The identity of a thing of one sort. -/
structure Id (e : Entity) where
  val : UInt64
deriving DecidableEq, Repr

/-- The identity of a ride request. -/
abbrev RequestId := Id .request

/-- The identity of the passenger who asks for a ride. -/
abbrev PassengerId := Id .passenger

/-- The identity of a vehicle of the fleet. -/
abbrev VehicleId := Id .vehicle

/-- The identity of a directed road link. -/
abbrev LinkId := Id .link

namespace Id

variable {e : Entity}

instance : Ord (Id e) := ⟨fun a b => compare a.val b.val⟩

instance : Std.TransOrd (Id e) where
  eq_swap := fun {a b} =>
    (Std.OrientedCmp.eq_swap : compare a.val b.val = (compare b.val a.val).swap)
  isLE_trans := fun {a _ c} hab hbc =>
    (Std.TransCmp.isLE_trans hab hbc : (compare a.val c.val).isLE = true)

instance : Std.LawfulEqOrd (Id e) where
  eq_of_compare := fun {a b} (h : compare a.val b.val = .eq) => by
    cases a; cases b
    exact congrArg Id.mk (Std.LawfulEqCmp.eq_of_compare h)

instance : LE (Id e) := ⟨fun a b => a.val ≤ b.val⟩
instance : LT (Id e) := ⟨fun a b => a.val < b.val⟩
instance (a b : Id e) : Decidable (a ≤ b) := inferInstanceAs (Decidable (a.val ≤ b.val))
instance (a b : Id e) : Decidable (a < b) := inferInstanceAs (Decidable (a.val < b.val))

/-- The text of an identity: the word of its sort, an underscore and its number. -/
def render (i : Id e) : String := e.word ++ "_" ++ toString i.val

end Id

/-- The identity of a driver confirmation, numbered from zero in the order of opening. -/
structure ConfirmationId where
  val : Nat
deriving DecidableEq, Repr

namespace ConfirmationId

instance : Ord ConfirmationId := ⟨fun a b => compare a.val b.val⟩

instance : Std.TransOrd ConfirmationId where
  eq_swap := fun {a b} =>
    (Std.OrientedCmp.eq_swap : compare a.val b.val = (compare b.val a.val).swap)
  isLE_trans := fun {a _ c} hab hbc =>
    (Std.TransCmp.isLE_trans hab hbc : (compare a.val c.val).isLE = true)

instance : Std.LawfulEqOrd ConfirmationId where
  eq_of_compare := fun {a b} (h : compare a.val b.val = .eq) => by
    cases a; cases b
    exact congrArg ConfirmationId.mk (Std.LawfulEqCmp.eq_of_compare h)

/-- The text of a confirmation's identity. -/
def render (i : ConfirmationId) : String := "confirmation_" ++ toString i.val

end ConfirmationId

end RideDispatch

import RideDispatch.Place
import RideDispatch.Time

/-!
# Ride requests

A request asks for a ride between two places. It may be picked up from `earliestStart` on, where
it is urgent, and gives up at `latestStart`, where it is expired; `Time.never` as the deadline
means that it waits for ever.
-/

namespace RideDispatch

/-- A request for a ride that no vehicle has been committed to. -/
structure Request where
  id : RequestId
  passenger : PassengerId
  origin : Place
  destination : Place
  submittedAt : Time
  /-- The earliest moment at which the passenger may be picked up. -/
  earliestStart : Time
  /-- The moment from which the request is no longer served. -/
  latestStart : Time
  /-- The number of dispatch cycles that have planned the request. -/
  attempts : Nat

namespace Request

/-- A request to leave at once, which searches for at most `maxSearch` if a limit is given. -/
def immediate (id : RequestId) (passenger : PassengerId) (origin destination : Place)
    (submittedAt : Time) (maxSearch : Option Time) : Request where
  id := id
  passenger := passenger
  origin := origin
  destination := destination
  submittedAt := submittedAt
  earliestStart := submittedAt
  latestStart := match maxSearch with
    | some span => submittedAt + span
    | none => Time.never
  attempts := 0

/-- Whether the passenger could be picked up by now. -/
def isUrgent (r : Request) (now : Time) : Bool := r.earliestStart ≤ now

/-- Whether the deadline, if there is one, has been reached. -/
def isExpired (r : Request) (now : Time) : Bool :=
  r.latestStart ≠ Time.never && r.latestStart ≤ now

theorem isExpired_iff {r : Request} {now : Time} :
    r.isExpired now = true ↔ r.latestStart ≠ Time.never ∧ r.latestStart ≤ now := by
  simp [isExpired]

end Request

end RideDispatch

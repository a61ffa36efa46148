/-!
# A queue of nodes by cost

A `CostQueue` is a binary heap of pairs of a cost and a node: below each entry stand entries that
cost no less. Among equal costs the heap's layout decides which comes out first, so the layout is
part of the definition: `push` lifts the new entry while it is strictly cheaper than the one above
it, and `pop?` lets the last entry sink along the cheaper side to the bottom before it is lifted.
-/

namespace RideDispatch

/-- A node that waits in a queue, with its cost. -/
structure CostQueue.Entry where
  cost : Nat
  node : Nat
deriving DecidableEq, Repr, Inhabited

/-- A queue that gives its cheapest entry first. -/
structure CostQueue where
  heap : Array CostQueue.Entry := #[]
deriving Repr

namespace CostQueue

/-- Lifts the entry at a position while it is strictly cheaper than the one above it. -/
def lift (heap : Array Entry) (i : Nat) : Array Entry :=
  if h : 0 < i ∧ i < heap.size then
    let above := (i - 1) / 2
    have : above < heap.size := by omega
    if heap[i].cost < heap[above].cost then lift (heap.swap i above) above else heap
  else heap
termination_by i
decreasing_by omega

/-- Lets the entry at a position sink to the bottom, past the cheaper of the two entries below it
and past the right one where they cost the same. Gives its last position. -/
def sink (heap : Array Entry) (i : Nat) : Array Entry × Nat :=
  if h : 2 * i + 2 < heap.size then
    let below := if heap[2 * i + 1].cost < heap[2 * i + 2].cost then 2 * i + 1 else 2 * i + 2
    have : below < heap.size := by simp only [below]; split <;> omega
    have : i < below := by simp only [below]; split <;> omega
    sink (heap.swap i below) below
  else if h : 2 * i + 1 < heap.size then (heap.swap i (2 * i + 1), 2 * i + 1)
  else (heap, i)
termination_by heap.size - i
decreasing_by simp only [Array.size_swap]; omega

/-- Adds an entry. -/
def push (q : CostQueue) (cost node : Nat) : CostQueue :=
  ⟨lift (q.heap.push ⟨cost, node⟩) q.heap.size⟩

/-- Takes a cheapest entry. -/
def pop? (q : CostQueue) : Option (Entry × CostQueue) :=
  match q.heap.back?, q.heap[0]? with
  | some last, some first =>
    let rest := q.heap.pop
    if rest.isEmpty then some (first, ⟨rest⟩)
    else
      let (heap, bottom) := sink (rest.setIfInBounds 0 last) 0
      some (first, ⟨lift heap bottom⟩)
  | _, _ => none

end CostQueue

end RideDispatch

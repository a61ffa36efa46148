/-!
# Simulated time

Moments and spans of simulated time are whole milliseconds in a 64-bit word. The greatest word,
`Time.never`, stands for a moment that is not reached, so sums stop there instead of wrapping
round: `Time.toNat_add` and `Time.toNat_sub` say what a sum and a difference are.
-/

namespace RideDispatch

/-- A moment of simulated time, or a span of it, in milliseconds. -/
structure Time where
  ms : UInt64
deriving DecidableEq, Repr, Inhabited

namespace Time

instance : Zero Time := ⟨⟨0⟩⟩

/-- The moment that is not reached, for instance the deadline of a request that waits for ever. -/
def never : Time := ⟨18446744073709551615⟩

/-- The time as a natural number of milliseconds. -/
def toNat (t : Time) : Nat := t.ms.toNat

/-- The time that is a given number of milliseconds, or `never` where the word is too small. -/
def ofNat (n : Nat) : Time := if n < UInt64.size then ⟨n.toUInt64⟩ else never

instance : LE Time := ⟨fun a b => a.ms ≤ b.ms⟩
instance : LT Time := ⟨fun a b => a.ms < b.ms⟩
instance (a b : Time) : Decidable (a ≤ b) := inferInstanceAs (Decidable (a.ms ≤ b.ms))
instance (a b : Time) : Decidable (a < b) := inferInstanceAs (Decidable (a.ms < b.ms))
instance : Max Time := maxOfLe
instance : Min Time := minOfLe

/-- A sum of times is `never` from the point where the word is full. -/
instance : Add Time := ⟨fun a b => if a.ms + b.ms < a.ms then never else ⟨a.ms + b.ms⟩⟩

/-- A difference of times is zero from the point where nothing is left. -/
instance : Sub Time := ⟨fun a b => if a.ms ≤ b.ms then 0 else ⟨a.ms - b.ms⟩⟩

/-- A number of whole seconds as a time. -/
def ofSecs (s : UInt64) : Time := ofNat (s.toNat * 1000)

/-- The time in seconds. -/
def toSecs (t : Time) : Float := t.ms.toFloat / 1000.0

@[ext]
theorem ext {a b : Time} (h : a.toNat = b.toNat) : a = b := by
  cases a; cases b
  exact congrArg Time.mk (UInt64.toNat_inj.1 h)

theorem toNat_le (t : Time) : t.toNat ≤ never.toNat := Nat.le_of_lt_succ t.ms.toNat_lt

@[simp] theorem toNat_zero : (0 : Time).toNat = 0 := rfl

@[simp] theorem toNat_never : never.toNat = 18446744073709551615 := rfl

theorem le_iff {a b : Time} : a ≤ b ↔ a.toNat ≤ b.toNat := UInt64.le_iff_toNat_le

theorem lt_iff {a b : Time} : a < b ↔ a.toNat < b.toNat := UInt64.lt_iff_toNat_lt

theorem not_le {a b : Time} : ¬ a ≤ b ↔ b < a := by
  rw [le_iff, lt_iff, Nat.not_le]

theorem not_lt {a b : Time} : ¬ a < b ↔ b ≤ a := by
  rw [le_iff, lt_iff, Nat.not_lt]

theorem toNat_ofNat (n : Nat) : (ofNat n).toNat = min n never.toNat := by
  unfold ofNat
  rw [toNat_never]
  split
  next h =>
    have hn : n.toUInt64.toNat = n := UInt64.toNat_ofNat_of_lt h
    show n.toUInt64.toNat = _
    simp only [UInt64.size] at h
    omega
  next h =>
    simp only [UInt64.size] at h
    rw [toNat_never]
    omega

/-- A sum is the sum of the milliseconds, capped at `never`. -/
theorem toNat_add (a b : Time) : (a + b).toNat = min (a.toNat + b.toNat) never.toNat := by
  have ha := a.toNat_le
  have hb := b.toNat_le
  rw [toNat_never] at *
  show (if a.ms + b.ms < a.ms then never else ⟨a.ms + b.ms⟩ : Time).toNat = _
  have hs : (a.ms + b.ms).toNat = (a.toNat + b.toNat) % 18446744073709551616 :=
    UInt64.toNat_add _ _
  split
  next h =>
    rw [UInt64.lt_iff_toNat_lt, hs] at h
    rw [toNat_never]
    unfold toNat at *
    omega
  next h =>
    rw [UInt64.lt_iff_toNat_lt, hs] at h
    show (a.ms + b.ms).toNat = _
    rw [hs]
    unfold toNat at *
    omega

/-- A difference is the difference of the milliseconds, or zero. -/
theorem toNat_sub (a b : Time) : (a - b).toNat = a.toNat - b.toNat := by
  show (if a.ms ≤ b.ms then 0 else ⟨a.ms - b.ms⟩ : Time).toNat = _
  split
  next h =>
    rw [UInt64.le_iff_toNat_le] at h
    rw [toNat_zero]
    unfold toNat
    omega
  next h =>
    have h : b.ms ≤ a.ms := by
      rw [UInt64.le_iff_toNat_le] at *
      omega
    exact UInt64.toNat_sub_of_le _ _ h

theorem toNat_max (a b : Time) : (max a b).toNat = max a.toNat b.toNat := by
  show (if a ≤ b then b else a).toNat = _
  split
  next h => rw [le_iff] at h; omega
  next h => rw [le_iff] at h; omega

theorem toNat_min (a b : Time) : (min a b).toNat = min a.toNat b.toNat := by
  show (if a ≤ b then a else b).toNat = _
  split
  next h => rw [le_iff] at h; omega
  next h => rw [le_iff] at h; omega

theorem toNat_ofSecs (s : UInt64) : (ofSecs s).toNat = min (s.toNat * 1000) never.toNat :=
  toNat_ofNat _

end Time

end RideDispatch

import Mathlib.Data.Int.Log
import Mathlib.Data.Rat.Floor
import Mathlib.Tactic.Linarith
import Slideshow.Proofs.Decimal.Exact

/-
  This file defines the rounding of a fraction to the
  nearest number of 53 binary digits, none of them below the
  least exponent of a double.

  A fraction is scaled by the exponent of the doubles around
  it and rounded to a whole number, a half to the even one.
  Rounding keeps the order of numbers, leaves those alone
  that have so few digits, and loses a number added to a
  greater one if it is less than half of the distance to the
  next one.

  Key definitions include:
    * `Binary.nearestWhole`
    * `Binary.exponentAt`
    * `Binary.nearest`

  Main results include:
    * `Binary.nearest_neg`
    * `Binary.nearest_mono`
    * `Binary.nearest_of_exponentAt_le`
    * `Binary.abs_nearest_sub_le`
    * `Binary.lt_nearest_add_iff`
-/

namespace Slideshow

namespace Binary

------------------------------------------------------------
-- Whole Numbers
------------------------------------------------------------

/-
  The whole number nearest to a fraction.  A half goes to
  the even one of its neighbours.
-/
def nearestWhole (x : ℚ) : ℤ :=
  if Int.fract x < 1 / 2 then ⌊x⌋
  else if 1 / 2 < Int.fract x then ⌊x⌋ + 1
  else ⌊x⌋ + ⌊x⌋ % 2

/- The whole number nearest to a whole number and a part. -/
theorem nearestWhole_add
    {n : ℤ}
    {part : ℚ}
    (hNonneg : 0 ≤ part)
    (hLt : part < 1) :
    nearestWhole (n + part) =
      if part < 1 / 2 then n
      else if 1 / 2 < part then n + 1
      else n + n % 2 := by
  have hFloor : ⌊(n : ℚ) + part⌋ = n := by
    rw [Int.floor_intCast_add,
      Int.floor_eq_zero_iff.mpr ⟨hNonneg, hLt⟩, add_zero]
  have hPart : Int.fract ((n : ℚ) + part) = part := by
    rw [Int.fract, hFloor, add_sub_cancel_left]
  rw [nearestWhole, hFloor, hPart]

/- A part above one half, or one half of an odd number. -/
theorem lt_nearestWhole_add_iff
    {n : ℤ}
    {part : ℚ}
    (hNonneg : 0 ≤ part)
    (hLt : part < 1) :
    n < nearestWhole (n + part) ↔
      1 / 2 < part ∨ part = 1 / 2 ∧ n % 2 = 1 := by
  rw [nearestWhole_add hNonneg hLt]
  split_ifs with hLess hMore
  · constructor
    · intro hSelf
      exact absurd hSelf (lt_irrefl n)
    · rintro (hMore | ⟨hHalf, -⟩)
      · exact absurd hMore hLess.not_gt
      · exact absurd hHalf hLess.ne
  · exact ⟨fun _ => .inl hMore, fun _ => lt_add_one n⟩
  · have hHalf : part = 1 / 2 :=
      le_antisymm (not_lt.mp hMore) (not_lt.mp hLess)
    constructor
    · intro hUp
      exact .inr ⟨hHalf, by omega⟩
    · rintro (hUp | ⟨-, hOdd⟩)
      · exact absurd hUp hMore
      · omega

theorem nearestWhole_intCast (n : ℤ) :
    nearestWhole n = n := by
  simp [nearestWhole]

theorem le_nearestWhole
    {n : ℤ}
    {x : ℚ}
    (hLe : n ≤ x) :
    n ≤ nearestWhole x := by
  have hFloor : n ≤ ⌊x⌋ := Int.le_floor.mpr hLe
  unfold nearestWhole
  split_ifs <;> omega

theorem nearestWhole_le_floor_add_one (x : ℚ) :
    nearestWhole x ≤ ⌊x⌋ + 1 := by
  unfold nearestWhole
  split_ifs <;> omega

theorem nearestWhole_le
    {n : ℤ}
    {x : ℚ}
    (hLt : x < n) :
    nearestWhole x ≤ n := by
  have hFloor : ⌊x⌋ < n := Int.floor_lt.mpr hLt
  have hNext := nearestWhole_le_floor_add_one x
  omega

/- A greater fraction has no smaller nearest number. -/
theorem nearestWhole_mono
    {x y : ℚ}
    (hLe : x ≤ y) :
    nearestWhole x ≤ nearestWhole y := by
  rcases (Int.floor_mono hLe).lt_or_eq with hLt | hEq
  · calc nearestWhole x ≤ ⌊x⌋ + 1 :=
          nearestWhole_le_floor_add_one x
      _ ≤ ⌊y⌋ := hLt
      _ ≤ nearestWhole y :=
          le_nearestWhole (Int.floor_le y)
  · have hFract : Int.fract x ≤ Int.fract y := by
      rw [Int.fract, Int.fract, hEq]
      exact sub_le_sub_right hLe _
    unfold nearestWhole
    rw [hEq]
    split_ifs <;> first | omega | (exfalso; linarith)

/- The mirror image of a fraction is rounded likewise. -/
theorem nearestWhole_neg (x : ℚ) :
    nearestWhole (-x) = -nearestWhole x := by
  have hNonneg := Int.fract_nonneg x
  have hLt := Int.fract_lt_one x
  rw [← Int.floor_add_fract x]
  rcases hNonneg.eq_or_lt with hZero | hPos
  · rw [← hZero, add_zero, ← Int.cast_neg,
      nearestWhole_intCast, nearestWhole_intCast]
  · have hMirror :
        -((⌊x⌋ : ℚ) + Int.fract x) =
          ((-⌊x⌋ - 1 : ℤ) : ℚ) + (1 - Int.fract x) := by
      push_cast
      ring
    rw [hMirror, nearestWhole_add hNonneg hLt,
      nearestWhole_add (by linarith) (by linarith)]
    split_ifs <;> first | omega | (exfalso; linarith)

------------------------------------------------------------
-- Exponents
------------------------------------------------------------

/- The exponent of the doubles around a positive number. -/
def exponentAt (x : ℚ) : ℤ :=
  max (Int.log 2 x - 52) (-1074)

section Exponent

variable {x y : ℚ}
variable {q : ℤ}
variable (hPos : 0 < x)

theorem le_exponentAt : -1074 ≤ exponentAt x :=
  le_max_right _ _

include hPos

/- A number with a small exponent is small. -/
theorem exponentAt_le_iff :
    exponentAt x ≤ q ↔ x < 2 ^ (q + 53) ∧ -1074 ≤ q := by
  have hLog :
      Int.log 2 x < q + 53 ↔ x < 2 ^ (q + 53) := by
    exact_mod_cast
      (Int.lt_zpow_iff_log_lt one_lt_two hPos).symm
  rw [exponentAt, max_le_iff, ← hLog]
  constructor
  · rintro ⟨hLe, hLow⟩
    exact ⟨by omega, hLow⟩
  · rintro ⟨hLt, hLow⟩
    exact ⟨by omega, hLow⟩

theorem lt_of_exponentAt :
    x < 2 ^ (exponentAt x + 53) :=
  ((exponentAt_le_iff hPos).mp le_rfl).1

/- All 53 bits count unless the exponent is the least. -/
theorem le_of_lt_exponentAt
    (hLow : -1074 < exponentAt x) :
    2 ^ (exponentAt x + 52) ≤ x := by
  have hNot : ¬ exponentAt x ≤ exponentAt x - 1 := by
    omega
  rw [exponentAt_le_iff hPos, not_and_or, not_lt] at hNot
  have hPower :
      exponentAt x - 1 + 53 = exponentAt x + 52 := by
    ring
  rcases hNot with hLe | hLt
  · rwa [hPower] at hLe
  · omega

/- The exponent is the one with so many digits. -/
theorem exponentAt_eq
    (hLow : -1074 ≤ q)
    (hLt : x < 2 ^ (q + 53))
    (hFull : -1074 < q → 2 ^ (q + 52) ≤ x) :
    exponentAt x = q := by
  apply le_antisymm ((exponentAt_le_iff hPos).mpr
    ⟨hLt, hLow⟩)
  by_contra hSmaller
  have hLess : exponentAt x ≤ q - 1 := by
    omega
  have hAbove : -1074 < q := by
    have := le_exponentAt (x := x)
    omega
  have hSmall := ((exponentAt_le_iff hPos).mp hLess).1
  have hPower : q - 1 + 53 = q + 52 := by
    ring
  rw [hPower] at hSmall
  exact absurd (hFull hAbove) (not_le.mpr hSmall)

theorem exponentAt_mono (hLe : x ≤ y) :
    exponentAt x ≤ exponentAt y := by
  rw [exponentAt_le_iff hPos]
  exact ⟨hLe.trans_lt (lt_of_exponentAt (hPos.trans_le hLe)),
    le_exponentAt⟩

end Exponent

/- The exponent of canonical fields is that of the value. -/
theorem exponentAt_magnitude
    {m : Nat}
    {q : ℤ}
    (hPos : 0 < m)
    (hCanonical : IsCanonical m q) :
    exponentAt (magnitude m q) = q := by
  have hPower : (0 : ℚ) < 2 ^ q := by
    positivity
  apply exponentAt_eq (magnitude_pos q hPos) hCanonical.le
  · rw [add_comm, zpow_add₀ two_ne_zero]
    apply mul_lt_mul_of_pos_right _ hPower
    exact_mod_cast hCanonical.lt
  · intro hLow
    rw [add_comm, zpow_add₀ two_ne_zero]
    apply mul_le_mul_of_nonneg_right _ hPower.le
    exact_mod_cast hCanonical.full hLow

------------------------------------------------------------
-- Fractions
------------------------------------------------------------

/- The number of 53 binary digits nearest to a fraction. -/
def nearest (x : ℚ) : ℚ :=
  nearestWhole (x / 2 ^ exponentAt |x|) *
    2 ^ exponentAt |x|

/- The mirror image of a fraction is rounded likewise. -/
theorem nearest_neg (x : ℚ) :
    nearest (-x) = -nearest x := by
  rw [nearest, nearest, abs_neg, neg_div, nearestWhole_neg,
    Int.cast_neg, neg_mul]

theorem nearest_zero : nearest 0 = 0 := by
  rw [nearest, zero_div, ← Int.cast_zero,
    nearestWhole_intCast, Int.cast_zero, zero_mul]

/- A number of few digits is left alone. -/
theorem nearest_of_exponentAt_le
    {x : ℚ}
    {q : ℤ}
    (n : ℤ)
    (hWhole : x = n * 2 ^ q)
    (hLe : exponentAt |x| ≤ q) :
    nearest x = x := by
  have hPower : (2 : ℚ) ^ exponentAt |x| ≠ 0 := by
    positivity
  have hScaled :
      x / 2 ^ exponentAt |x| =
        ((n * 2 ^ (q - exponentAt |x|).toNat : ℤ) : ℚ) := by
    have hExponent :
        ((q - exponentAt |x|).toNat : ℤ) =
          q - exponentAt |x| :=
      Int.toNat_of_nonneg (by omega)
    push_cast
    rw [← zpow_natCast, hExponent, zpow_sub₀ two_ne_zero,
      mul_div_assoc', ← hWhole]
  rw [nearest, hScaled, nearestWhole_intCast, ← hScaled,
    div_mul_cancel₀ x hPower]

/- A significand of 53 binary digits is left alone. -/
theorem nearest_magnitude
    {m : Nat}
    {q : ℤ}
    (hLt : m < 2 ^ 53)
    (hLow : -1074 ≤ q) :
    nearest (magnitude m q) = magnitude m q := by
  have hPower : (0 : ℚ) < 2 ^ q := by
    positivity
  have hWhole : magnitude m q = (m : ℤ) * 2 ^ q := by
    rw [magnitude, Int.cast_natCast]
  rcases Nat.eq_zero_or_pos m with rfl | hPos
  · rw [magnitude, Nat.cast_zero, zero_mul, nearest_zero]
  · have hMagnitude := magnitude_pos q hPos
    apply nearest_of_exponentAt_le m hWhole
    rw [abs_of_pos hMagnitude, exponentAt_le_iff hMagnitude,
      add_comm, zpow_add₀ two_ne_zero]
    refine ⟨mul_lt_mul_of_pos_right ?_ hPower, hLow⟩
    exact_mod_cast hLt

section Positive

variable {x y : ℚ}
variable (hPos : 0 < x)

include hPos

theorem nearest_of_pos :
    nearest x =
      nearestWhole (x / 2 ^ exponentAt x) *
        2 ^ exponentAt x := by
  rw [nearest, abs_of_pos hPos]

theorem scaled_lt : x / 2 ^ exponentAt x < (2 ^ 53 : ℤ) := by
  have hLt := lt_of_exponentAt hPos
  rw [add_comm, zpow_add₀ two_ne_zero] at hLt
  rw [div_lt_iff₀ (by positivity)]
  exact_mod_cast hLt

theorem le_scaled (hLow : -1074 < exponentAt x) :
    (2 ^ 52 : ℤ) ≤ x / 2 ^ exponentAt x := by
  have hLe := le_of_lt_exponentAt hPos hLow
  rw [add_comm, zpow_add₀ two_ne_zero] at hLe
  rw [le_div_iff₀ (by positivity)]
  exact_mod_cast hLe

theorem nearest_nonneg : 0 ≤ nearest x := by
  have hScaled : ((0 : ℤ) : ℚ) ≤ x / 2 ^ exponentAt x := by
    rw [Int.cast_zero]
    positivity
  have hWhole :
      (0 : ℚ) ≤ nearestWhole (x / 2 ^ exponentAt x) := by
    exact_mod_cast le_nearestWhole hScaled
  rw [nearest_of_pos hPos]
  positivity

theorem nearest_le_zpow :
    nearest x ≤ 2 ^ (exponentAt x + 53) := by
  have hWhole :
      (nearestWhole (x / 2 ^ exponentAt x) : ℚ) ≤ 2 ^ 53 := by
    exact_mod_cast nearestWhole_le (scaled_lt hPos)
  rw [nearest_of_pos hPos, add_comm, zpow_add₀ two_ne_zero]
  exact mul_le_mul_of_nonneg_right hWhole (by positivity)

theorem zpow_le_nearest (hLow : -1074 < exponentAt x) :
    2 ^ (exponentAt x + 52) ≤ nearest x := by
  have hWhole :
      (2 ^ 52 : ℚ) ≤ nearestWhole (x / 2 ^ exponentAt x) := by
    exact_mod_cast le_nearestWhole (le_scaled hPos hLow)
  rw [nearest_of_pos hPos, add_comm, zpow_add₀ two_ne_zero]
  exact mul_le_mul_of_nonneg_right hWhole (by positivity)

/- Rounding keeps the order of positive numbers. -/
theorem nearest_mono (hLe : x ≤ y) :
    nearest x ≤ nearest y := by
  have hPos' := hPos.trans_le hLe
  rcases (exponentAt_mono hPos hLe).lt_or_eq with hLt | hEq
  · calc nearest x ≤ 2 ^ (exponentAt x + 53) :=
          nearest_le_zpow hPos
      _ ≤ 2 ^ (exponentAt y + 52) :=
          zpow_le_zpow_right₀ one_le_two (by omega)
      _ ≤ nearest y :=
          zpow_le_nearest hPos'
            (le_exponentAt.trans_lt hLt)
  · have hScaled :
        x / 2 ^ exponentAt y ≤ y / 2 ^ exponentAt y :=
      div_le_div_of_nonneg_right hLe (by positivity)
    have hWhole :
        (nearestWhole (x / 2 ^ exponentAt y) : ℚ) ≤
          nearestWhole (y / 2 ^ exponentAt y) := by
      exact_mod_cast nearestWhole_mono hScaled
    rw [nearest_of_pos hPos, nearest_of_pos hPos', hEq]
    exact mul_le_mul_of_nonneg_right hWhole (by positivity)

end Positive

theorem abs_nearest (x : ℚ) : |nearest x| = nearest |x| := by
  rcases lt_trichotomy x 0 with hNegative | rfl | hPos
  · have hMirror := neg_pos.mpr hNegative
    rw [abs_of_neg hNegative, ← abs_neg, ← nearest_neg,
      abs_of_nonneg (nearest_nonneg hMirror)]
  · rw [abs_zero, nearest_zero, abs_zero]
  · rw [abs_of_pos hPos, abs_of_nonneg (nearest_nonneg hPos)]

theorem abs_nearest_le
    {x limit : ℚ}
    (hLimit : nearest limit = limit)
    (hLe : |x| ≤ limit) :
    |nearest x| ≤ limit := by
  rw [abs_nearest]
  rcases (abs_nonneg x).eq_or_lt with hZero | hPos
  · rw [← hZero, nearest_zero, hZero]
    exact hLe
  · exact (nearest_mono hPos hLe).trans_eq hLimit

------------------------------------------------------------
-- Distances
------------------------------------------------------------

/- The nearest whole number is at most one half away. -/
theorem abs_nearestWhole_sub_le (x : ℚ) :
    |(nearestWhole x : ℚ) - x| ≤ 1 / 2 := by
  have hNonneg := Int.fract_nonneg x
  have hLt := Int.fract_lt_one x
  have hSplit := Int.floor_add_fract x
  unfold nearestWhole
  split_ifs with hLess hMore
  · rw [abs_le]
    constructor <;> linarith
  · rw [abs_le]
    push_cast
    constructor <;> linarith
  · have hHalf : Int.fract x = 1 / 2 :=
      le_antisymm (not_lt.mp hMore) (not_lt.mp hLess)
    rw [abs_le]
    rcases Int.emod_two_eq_zero_or_one ⌊x⌋ with hEven | hOdd
    · rw [hEven, add_zero]
      constructor <;> linarith
    · rw [hOdd]
      push_cast
      constructor <;> linarith

/-
  Above the range of the least exponent, rounding moves a
  number by one part in 2 ^ 53 at most.
-/
theorem abs_nearest_sub_le
    {x : ℚ}
    (hNormal : 2 ^ (-1022 : ℤ) ≤ x) :
    |nearest x - x| ≤ x / 2 ^ 53 := by
  have hLeast : (0 : ℚ) < 2 ^ (-1022 : ℤ) := by
    positivity
  have hPos : 0 < x := hLeast.trans_le hNormal
  have hPower : (0 : ℚ) < 2 ^ exponentAt x := by
    positivity
  have hRange : 2 ^ (exponentAt x + 52) ≤ x := by
    rcases (le_exponentAt (x := x)).eq_or_lt with hEq | hLow
    · rw [← hEq]
      exact hNormal
    · exact le_of_lt_exponentAt hPos hLow
  have hUnit : 2 ^ exponentAt x * 2 ^ 52 ≤ x := by
    rw [zpow_add₀ two_ne_zero] at hRange
    exact_mod_cast hRange
  have hScaled :=
    abs_nearestWhole_sub_le (x / 2 ^ exponentAt x)
  have hDistance :
      nearest x - x =
        (nearestWhole (x / 2 ^ exponentAt x) -
          x / 2 ^ exponentAt x) * 2 ^ exponentAt x := by
    rw [nearest_of_pos hPos, sub_mul,
      div_mul_cancel₀ x hPower.ne']
  calc |nearest x - x|
      = |(nearestWhole (x / 2 ^ exponentAt x) : ℚ) -
          x / 2 ^ exponentAt x| * 2 ^ exponentAt x := by
        rw [hDistance, abs_mul, abs_of_pos hPower]
    _ ≤ 1 / 2 * 2 ^ exponentAt x :=
        mul_le_mul_of_nonneg_right hScaled hPower.le
    _ ≤ x / 2 ^ 53 := by
        rw [le_div_iff₀ (by positivity)]
        linarith

------------------------------------------------------------
-- Lost Parts
------------------------------------------------------------

section Adding

variable {m : Nat}
variable {q : ℤ}
variable {part : ℚ}
variable (hPos : 0 < m)
variable (hCanonical : IsCanonical m q)
variable (hPart : 0 < part)

include hPos hCanonical hPart

theorem magnitude_le_nearest_add :
    magnitude m q ≤ nearest (magnitude m q + part) := by
  have hStart := magnitude_pos q hPos
  calc magnitude m q
      = nearest (magnitude m q) :=
        (nearest_magnitude hCanonical.lt hCanonical.le).symm
    _ ≤ nearest (magnitude m q + part) :=
        nearest_mono hStart (by linarith)

/- A part below the distance keeps the exponent. -/
theorem exponentAt_add_of_lt (hLt : part < 2 ^ q) :
    exponentAt (magnitude m q + part) = q := by
  have hPower : (0 : ℚ) < 2 ^ q := by
    positivity
  have hStart := magnitude_pos q hPos
  apply exponentAt_eq (by positivity) hCanonical.le
  · have hNext : ((m + 1 : ℕ) : ℚ) ≤ (2 ^ 53 : ℕ) := by
      exact_mod_cast hCanonical.lt
    calc magnitude m q + part
        < (m + 1 : ℕ) * 2 ^ q := by
          rw [magnitude]
          push_cast
          linarith
      _ ≤ (2 ^ 53 : ℕ) * 2 ^ q :=
          mul_le_mul_of_nonneg_right hNext hPower.le
      _ = 2 ^ (q + 53) := by
          rw [add_comm, zpow_add₀ two_ne_zero]
          norm_cast
  · intro hLow
    have hRange := le_of_lt_exponentAt hStart
    rw [exponentAt_magnitude hPos hCanonical] at hRange
    linarith [hRange hLow]

/- Half of the distance to the next number decides. -/
theorem lt_nearest_add_iff_of_lt (hLt : part < 2 ^ q) :
    magnitude m q < nearest (magnitude m q + part) ↔
      2 ^ q < 2 * part ∨ 2 ^ q = 2 * part ∧ m % 2 = 1 := by
  have hPower : (0 : ℚ) < 2 ^ q := by
    positivity
  have hStart := magnitude_pos q hPos
  have hScaled :
      (magnitude m q + part) / 2 ^ q =
        ((m : ℤ) : ℚ) + part / 2 ^ q := by
    rw [magnitude, add_div, mul_div_cancel_right₀ _ hPower.ne']
    norm_cast
  have hMore : 1 / 2 < part / 2 ^ q ↔ 2 ^ q < 2 * part := by
    rw [lt_div_iff₀ hPower]
    constructor <;> intro h <;> linarith
  have hHalf : part / 2 ^ q = 1 / 2 ↔ 2 ^ q = 2 * part := by
    rw [div_eq_iff hPower.ne']
    constructor <;> intro h <;> linarith
  have hOdd : (m : ℤ) % 2 = 1 ↔ m % 2 = 1 := by
    omega
  have hCompare (n : ℤ) :
      magnitude m q < n * 2 ^ q ↔ (m : ℤ) < n := by
    rw [magnitude, mul_lt_mul_iff_left₀ hPower]
    norm_cast
  rw [nearest_of_pos (by positivity),
    exponentAt_add_of_lt hPos hCanonical hPart hLt, hScaled,
    hCompare,
    lt_nearestWhole_add_iff (by positivity)
      ((div_lt_one hPower).mpr hLt),
    hMore, hHalf, hOdd]

/-
  A part that is added to a canonical number is lost unless
  it is more than half of the distance to the next number.
  Half of it is kept by an odd significand.
-/
theorem lt_nearest_add_iff :
    magnitude m q < nearest (magnitude m q + part) ↔
      2 ^ q < 2 * part ∨ 2 ^ q = 2 * part ∧ m % 2 = 1 := by
  have hPower : (0 : ℚ) < 2 ^ q := by
    positivity
  have hStart := magnitude_pos q hPos
  rcases lt_or_ge part (2 ^ q) with hLt | hGe
  · exact lt_nearest_add_iff_of_lt hPos hCanonical hPart hLt
  · refine ⟨fun _ => .inl (by linarith), fun _ => ?_⟩
    -- Three quarters of the distance are already enough.
    have hQuarters : (0 : ℚ) < 3 / 4 * 2 ^ q := by
      positivity
    have hKept :=
      (lt_nearest_add_iff_of_lt hPos hCanonical hQuarters
        (by linarith)).mpr (.inl (by linarith))
    exact hKept.trans_le
      (nearest_mono (by positivity) (by linarith))

end Adding

end Binary

end Slideshow

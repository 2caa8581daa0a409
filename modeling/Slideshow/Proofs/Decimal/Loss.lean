import Slideshow.Proofs.Decimal.Arithmetic
import Slideshow.Proofs.Decimal.Sum

/-
  This file proves when a positive double is lost in a sum.

  A sum never falls below its first term.  It exceeds it
  exactly if the second term is more than half of the
  distance from the first term to the next double
  (`Binary.IsLostIn`), which it is if the first term is less
  than 2 ^ 53 times as large.

  Key definitions include:
    * `Binary.IsLostIn`

  Main results include:
    * `Binary.le_add_of_pos`
    * `Binary.lt_add_iff`
    * `Binary.not_isLostIn_of_lt`
-/

namespace Slideshow

namespace Binary

open Float.Model (UnpackedFloat Format)

------------------------------------------------------------
-- Positive Doubles
------------------------------------------------------------

/- A positive double is infinite or has canonical fields. -/
theorem ofFloat_of_pos
    {x : Float}
    (hPos : 0 < x) :
    ofFloat x = .infinite false ∨
      ∃ m q,
        0 < m ∧ IsCanonical m q ∧
          ofFloat x = .finite false m q := by
  have hZero :
      (0 : Float).toModel.unpack = .zero .positive := rfl
  rw [lt_iff_compare, hZero] at hPos
  rw [ofFloat_eq_ofUnpacked]
  cases hFields : x.toModel.unpack with
  | notANumber =>
      rw [hFields] at hPos
      cases hPos
  | infinity s =>
      rw [hFields] at hPos
      cases s with
      | negative => cases hPos
      | positive => exact .inl rfl
  | zero s =>
      rw [hFields] at hPos
      cases hPos
  | finite s m q hNonzero =>
      rw [hFields] at hPos
      cases s with
      | negative => cases hPos
      | positive =>
          exact .inr ⟨m, q, hNonzero,
            isCanonical_of_unpack hFields, rfl⟩

/- A sum with an infinite first term is infinite. -/
theorem add_infinite
    {x y : Float}
    {w : ℚ}
    (hX : ofFloat x = .infinite false)
    (hY : exactValue? y = some w) :
    ofFloat (x + y) = .infinite false := by
  rcases exists_unpack_infinity hX with ⟨s, hFields, hSign⟩
  have hSum :
      x + y =
        Float.ofModel
          (Float.Model.pack
            (UnpackedFloat.add Format.binary64
              x.toModel.unpack y.toModel.unpack)) := rfl
  have hInfinity :
      ofFloat
          (Float.ofModel
            (Float.Model.pack (.infinity .positive))) =
        .infinite false :=
    ofBits_packComponents
  rw [← value?_unpack] at hY
  rw [hSum, hFields]
  cases s with
  | negative => cases hSign
  | positive =>
      rcases value?_eq_some_cases hY with
        ⟨s, hOther, -⟩ | ⟨s, m, q, hPos, hOther, -⟩
      · rw [hOther]
        exact hInfinity
      · rw [hOther]
        exact hInfinity

/- Nothing is beyond the positive infinite double. -/
theorem not_lt_of_infinite
    {x y : Float}
    (hX : ofFloat x = .infinite false) :
    ¬ x < y := by
  rcases exists_unpack_infinity hX with ⟨s, hFields, hSign⟩
  rw [lt_iff_compare, hFields]
  cases s with
  | negative => cases hSign
  | positive =>
      cases y.toModel.unpack with
      | infinity s => cases s <;> exact Bool.false_ne_true
      | _ => exact Bool.false_ne_true

/- The positive infinite double is at itself. -/
theorem compare_same_infinite
    {x y : Float}
    (hX : ofFloat x = .infinite false)
    (hY : ofFloat y = .infinite false) :
    x ≤ y ∧ ¬ x < y := by
  refine ⟨?_, not_lt_of_infinite hX⟩
  rcases exists_unpack_infinity hX with ⟨s₁, hFirst, hSign₁⟩
  rcases exists_unpack_infinity hY with ⟨s₂, hSecond, hSign₂⟩
  rw [le_iff_compare, hFirst, hSecond]
  cases s₁ with
  | negative => cases hSign₁
  | positive =>
      cases s₂ with
      | negative => cases hSign₂
      | positive => rfl

------------------------------------------------------------
-- Values in Range
------------------------------------------------------------

theorem nearest_of_exactValue?
    {x : Float}
    {v : ℚ}
    (hX : exactValue? x = some v) :
    nearest v = v := by
  have hRounded :=
    isRounded_of_isStored (isStored_unpack x)
      ((value?_unpack x).trans hX)
  have hSame := hRounded.value
  rw [value?_unpack, hX] at hSame
  exact (Option.some.inj hSame).symm

/- The value of a double that is not infinite is in range. -/
theorem abs_lt_rangeEnd
    {x : Float}
    {v : ℚ}
    (hX : exactValue? x = some v) :
    |v| < rangeEnd := by
  have hRounds :=
    rounds_of_isRounded
      (isRounded_of_isStored (isStored_unpack x)
        ((value?_unpack x).trans hX))
  rw [pack_unpack, Rounds, nearest_of_exactValue? hX]
    at hRounds
  by_contra hOut
  rw [if_neg hOut] at hRounds
  rw [exactValue?, hRounds] at hX
  cases hX

/-
  A positive sum is below a double exactly if the nearest
  number is, even where it is out of range.
-/
theorem add_lt_iff
    {x y z : Float}
    {v w u : ℚ}
    (hX : exactValue? x = some v)
    (hY : exactValue? y = some w)
    (hZ : exactValue? z = some u)
    (hPos : 0 < v + w) :
    x + y < z ↔ nearest (v + w) < u := by
  have hNonneg := nearest_nonneg hPos
  have hRounds := rounds_add hX hY
  rw [Rounds, abs_of_nonneg hNonneg,
    decide_eq_false hNonneg.not_gt] at hRounds
  split_ifs at hRounds with hRange
  · exact lt_iff hRounds hZ
  · have hBelow : u < rangeEnd :=
      (le_abs_self u).trans_lt (abs_lt_rangeEnd hZ)
    constructor
    · intro hLt
      exact absurd hLt (not_lt_of_infinite hRounds)
    · intro hLt
      exact absurd (hLt.trans hBelow) hRange

------------------------------------------------------------
-- Sums of Numbers
------------------------------------------------------------

section Numbers

variable {x y : Float}
variable {m : Nat}
variable {q : ℤ}
variable {w : ℚ}
variable (hNonzero : 0 < m)
variable (hX : ofFloat x = .finite false m q)

include hNonzero hX

theorem magnitude_lt_rangeEnd : magnitude m q < rangeEnd := by
  have hValue : exactValue? x = some (magnitude m q) := by
    rw [exactValue?, hX]
    rfl
  rw [← abs_of_pos (magnitude_pos q hNonzero)]
  exact abs_lt_rangeEnd hValue

variable (hY : exactValue? y = some w)
variable (hPart : 0 < w)

include hY hPart

/- A sum is the nearest double, or beyond its first term. -/
theorem add_number :
    exactValue? (x + y) = some (nearest (magnitude m q + w)) ∨
      ofFloat (x + y) = .infinite false ∧
        magnitude m q < nearest (magnitude m q + w) := by
  have hValue : exactValue? x = some (magnitude m q) := by
    rw [exactValue?, hX]
    rfl
  have hStart := magnitude_pos q hNonzero
  have hNonneg : 0 ≤ nearest (magnitude m q + w) :=
    nearest_nonneg (by positivity)
  have hRounds := rounds_add hValue hY
  rw [Rounds, abs_of_nonneg hNonneg,
    decide_eq_false hNonneg.not_gt] at hRounds
  split_ifs at hRounds with hRange
  · exact .inl hRounds
  · exact .inr ⟨hRounds,
      (magnitude_lt_rangeEnd hNonzero hX).trans_le
        (not_lt.mp hRange)⟩

/- Comparing a sum with its first term. -/
theorem compare_add_number (hCanonical : IsCanonical m q) :
    0 < x + y ∧ x ≤ x + y ∧
      (x < x + y ↔
        magnitude m q < nearest (magnitude m q + w)) := by
  have hValue : exactValue? x = some (magnitude m q) := by
    rw [exactValue?, hX]
    rfl
  have hStart := magnitude_pos q hNonzero
  have hLe :=
    magnitude_le_nearest_add hNonzero hCanonical hPart
  rcases add_number hNonzero hX hY hPart with
    hSum | ⟨hInfinite, hAbove⟩
  · rw [lt_iff exactValue?_zero hSum, le_iff hValue hSum,
      lt_iff hValue hSum]
    exact ⟨hStart.trans_le hLe, hLe, Iff.rfl⟩
  · have hLt := compare_infinite hValue hInfinite
    exact ⟨compare_infinite exactValue?_zero hInfinite,
      le_of_lt hLt, fun _ => hAbove, fun _ => hLt⟩

end Numbers

------------------------------------------------------------
-- Lost Numbers
------------------------------------------------------------

/-
  A double is lost in another one if it is less than half of
  the distance from that to the next, or half of it behind
  an even significand.  Nothing is added to an infinite one.
-/
def IsLostIn (part whole : Float) : Prop :=
  ∀ w m q,
    exactValue? part = some w →
      ofFloat whole = .finite false m q →
        2 * w < 2 ^ q ∨ 2 * w = 2 ^ q ∧ m % 2 = 0

section Lost

variable {x y : Float}
variable {w : ℚ}
variable (hPos : 0 < x)
variable (hY : exactValue? y = some w)
variable (hPart : 0 < w)

include hPos hY hPart

theorem add_pos_of_pos : 0 < x + y := by
  rcases ofFloat_of_pos hPos with
    hInfinite | ⟨m, q, hNonzero, hCanonical, hX⟩
  · exact compare_infinite exactValue?_zero
      (add_infinite hInfinite hY)
  · exact (compare_add_number hNonzero hX hY hPart
      hCanonical).1

/- A sum of positive doubles is at least the first one. -/
theorem le_add_of_pos : x ≤ x + y := by
  rcases ofFloat_of_pos hPos with
    hInfinite | ⟨m, q, hNonzero, hCanonical, hX⟩
  · exact (compare_same_infinite hInfinite
      (add_infinite hInfinite hY)).1
  · exact (compare_add_number hNonzero hX hY hPart
      hCanonical).2.1

/- A sum exceeds the first double unless the second is lost. -/
theorem lt_add_iff : x < x + y ↔ ¬ IsLostIn y x := by
  rcases ofFloat_of_pos hPos with
    hInfinite | ⟨m, q, hNonzero, hCanonical, hX⟩
  · have hLost : IsLostIn y x := by
      intro w m q _ hX
      rw [hInfinite] at hX
      cases hX
    exact ⟨fun hLt => absurd hLt (compare_same_infinite
      hInfinite (add_infinite hInfinite hY)).2,
      fun hKept => absurd hLost hKept⟩
  · have hLost :
        IsLostIn y x ↔
          2 * w < 2 ^ q ∨ 2 * w = 2 ^ q ∧ m % 2 = 0 := by
      constructor
      · intro hLost
        exact hLost w m q hY hX
      · intro hSmall w' m' q' hY' hX'
        cases hY.symm.trans hY'
        cases hX.symm.trans hX'
        exact hSmall
    rw [(compare_add_number hNonzero hX hY hPart
        hCanonical).2.2,
      lt_nearest_add_iff hNonzero hCanonical hPart, hLost]
    rcases lt_trichotomy (2 * w) (2 ^ q) with
      hLess | hHalf | hMore
    · simp [hLess, hLess.not_gt, hLess.ne']
    · simp [hHalf]
    · simp [hMore, hMore.not_gt, hMore.ne']

end Lost

/- No positive double is below the least one. -/
theorem zpow_le_of_exactValue?
    {y : Float}
    {w : ℚ}
    (hY : exactValue? y = some w)
    (hPart : 0 < w) :
    2 ^ (-1074 : ℤ) ≤ w := by
  have hPos := (lt_iff exactValue?_zero hY).mpr hPart
  rcases ofFloat_of_pos hPos with
    hInfinite | ⟨m, q, hNonzero, hCanonical, hFields⟩
  · rw [exactValue?, hInfinite] at hY
    cases hY
  · rw [exactValue?, hFields] at hY
    cases hY
    have hOne : (1 : ℚ) ≤ m := by
      exact_mod_cast hNonzero
    calc (2 : ℚ) ^ (-1074 : ℤ)
        ≤ 2 ^ q :=
          zpow_le_zpow_right₀ one_le_two hCanonical.le
      _ = 1 * 2 ^ q := (one_mul _).symm
      _ ≤ m * 2 ^ q :=
          mul_le_mul_of_nonneg_right hOne (by positivity)

/-
  A positive double is not lost in one that is less than
  2 ^ 53 times as large.
-/
theorem not_isLostIn_of_lt
    {x y : Float}
    {v w : ℚ}
    (hPos : 0 < x)
    (hX : exactValue? x = some v)
    (hY : exactValue? y = some w)
    (hPart : 0 < w)
    (hLt : v < 2 ^ 53 * w) :
    ¬ IsLostIn y x := by
  intro hLost
  rcases ofFloat_of_pos hPos with
    hInfinite | ⟨m, q, hNonzero, hCanonical, hFields⟩
  · rw [exactValue?, hInfinite] at hX
    cases hX
  · rw [exactValue?, hFields] at hX
    cases hX
    have hHalf : 2 * w ≤ 2 ^ q := by
      rcases hLost w m q hY hFields with hLess | ⟨hEqual, -⟩
      · exact hLess.le
      · exact hEqual.le
    rcases hCanonical.le.eq_or_lt with rfl | hLow
    · have hLeast := zpow_le_of_exactValue? hY hPart
      linarith
    · have hFull : ((2 ^ 52 : ℕ) : ℚ) ≤ m := by
        exact_mod_cast hCanonical.full hLow
      have hLarge : 2 ^ 53 * w ≤ magnitude m q :=
        calc 2 ^ 53 * w
            = (2 ^ 52 : ℕ) * (2 * w) := by
              push_cast
              ring
          _ ≤ (2 ^ 52 : ℕ) * 2 ^ q :=
              mul_le_mul_of_nonneg_left hHalf (by positivity)
          _ ≤ magnitude m q :=
              mul_le_mul_of_nonneg_right hFull
                (by positivity)
      exact absurd hLt (not_lt.mpr hLarge)

end Binary

end Slideshow

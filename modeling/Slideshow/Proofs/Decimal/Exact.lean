import Mathlib.Algebra.Order.Field.Power
import Mathlib.Algebra.Order.Ring.Rat
import Mathlib.Order.Compare
import Mathlib.Tactic.NormNum
import Mathlib.Tactic.Positivity
import Mathlib.Tactic.Ring
import Slideshow.Decimal.Binary

/-
  This file defines the exact value of a double as a
  fraction and proves that the comparisons of doubles are
  those of their values.

  The comparison of doubles looks at exponents first and at
  significands second.  It agrees with the order of values
  because both are canonical: below a greater exponent the
  significand is full (`Binary.IsCanonical`), so that a
  smaller exponent always means a smaller magnitude
  (`Binary.magnitude_lt_of_lt`).

  Key definitions include:
    * `Binary.value?`
    * `Binary.exactValue?`
    * `Binary.ofUnpacked`

  Main results include:
    * `Binary.ofFloat_eq_ofUnpacked`
    * `Binary.value?_eq_some_cases`
    * `Binary.exists_exactValue?_iff`
    * `Binary.lt_iff`
    * `Binary.le_iff`
    * `Binary.isFinite_of_isFinite_add`
-/

namespace Slideshow

namespace Binary

open Float.Model (UnpackedFloat Format)
open Float.Model.UnpackedFloat (Sign)

------------------------------------------------------------
-- Values
------------------------------------------------------------

/- The value of a significand and an exponent. -/
def magnitude
    (m : Nat)
    (q : Int) : ℚ :=
  m * 2 ^ q

/- A value with its sign. -/
def signed
    (negative : Bool)
    (x : ℚ) : ℚ :=
  if negative then -x else x

@[simp] theorem signed_true (x : ℚ) :
    signed true x = -x :=
  rfl

@[simp] theorem signed_false (x : ℚ) :
    signed false x = x :=
  rfl

/- The value of a decoded double, if it is a number. -/
def value? : Binary → Option ℚ
  | .finite negative m q =>
      some (signed negative (magnitude m q))
  | _ => none

/- The exact value of a double, if it is a number. -/
def exactValue? (x : Float) : Option ℚ :=
  (ofFloat x).value?

theorem magnitude_pos
    {m : Nat}
    (q : Int)
    (hPos : 0 < m) :
    0 < magnitude m q := by
  have hCast : (0 : ℚ) < m := by
    exact_mod_cast hPos
  unfold magnitude
  positivity

------------------------------------------------------------
-- The Fields of a Word
------------------------------------------------------------

/- The sign is a minus. -/
def isNegative : Sign → Bool
  | .negative => true
  | .positive => false

/- The meaning of the unpacked fields of a double. -/
def ofUnpacked : UnpackedFloat → Binary
  | .notANumber => .nan
  | .infinity s => .infinite (isNegative s)
  | .zero s => .finite (isNegative s) 0 (-1074)
  | .finite s m q _ => .finite (isNegative s) m q

theorem ofUnpacked_finite
    {s : Sign}
    {m : Nat}
    {q : Int}
    (hPos : 0 < m) :
    ofUnpacked (.finite s m q hPos) =
      .finite (isNegative s) m q := rfl

variable {b : BitVec Format.binary64.numBits}

theorem toNat_unpackMantissa :
    (UnpackedFloat.unpackMantissa b).toNat =
      b.toNat % twoPow 52 := by
  simp [UnpackedFloat.unpackMantissa,
    BitVec.extractLsb_toNat, twoPow]

theorem toNat_unpackExponent :
    (UnpackedFloat.unpackExponent b).toNat =
      b.toNat / twoPow 52 % twoPow 11 := by
  simp [UnpackedFloat.unpackExponent,
    BitVec.extractLsb_toNat, twoPow,
    Nat.shiftRight_eq_div_pow]

/- The sign is the highest bit. -/
theorem isNegative_unpackSign :
    isNegative (Sign.ofBitVec (UnpackedFloat.unpackSign b)) =
      decide (twoPow 63 ≤ b.toNat) := by
  have hBit :
      (UnpackedFloat.unpackSign b).toNat =
        b.toNat / 2 ^ 63 % 2 := by
    have hField :
        (UnpackedFloat.unpackSign b).toNat =
          (b.extractLsb 63 63).toNat := rfl
    rw [hField, BitVec.extractLsb_toNat,
      Nat.shiftRight_eq_div_pow]
  have hBound : b.toNat < 2 ^ 64 := b.isLt
  have hPlus :
      UnpackedFloat.unpackSign b = 0#1 ↔
        b.toNat < 2 ^ 63 := by
    rw [← BitVec.toNat_inj, hBit, BitVec.toNat_zero]
    omega
  have hPow : twoPow 63 = 2 ^ 63 := rfl
  rw [Sign.ofBitVec, hPow]
  by_cases hLt : b.toNat < 2 ^ 63
  · rw [if_pos (hPlus.mpr hLt), decide_eq_false (by omega)]
    rfl
  · rw [if_neg (fun hZero => hLt (hPlus.mp hZero)),
      decide_eq_true (by omega)]
    rfl

theorem toNat_one_append
    {n : Nat}
    (v : BitVec n) :
    (1#1 ++ v).toNat = twoPow n + v.toNat := by
  rw [BitVec.toNat_append,
    ← Nat.shiftLeft_add_eq_or_of_lt v.isLt]
  simp [Nat.shiftLeft_eq, twoPow]

/- Decoding a word is unpacking its fields. -/
theorem ofBits_eq_ofUnpacked
    {bits : UInt64}
    (hBits : bits.toNat = b.toNat) :
    ofBits bits =
      ofUnpacked (UnpackedFloat.unpack Format.binary64 b)
    := by
  have hOnes :
      UnpackedFloat.unpackExponent b = -1#_ ↔
        b.toNat / twoPow 52 % twoPow 11 = 2047 := by
    rw [← toNat_unpackExponent, ← BitVec.toNat_inj]
    rfl
  have hZeros :
      UnpackedFloat.unpackExponent b = 0#_ ↔
        b.toNat / twoPow 52 % twoPow 11 = 0 := by
    rw [← toNat_unpackExponent, ← BitVec.toNat_inj]
    rfl
  have hFraction :
      UnpackedFloat.unpackMantissa b = 0#_ ↔
        b.toNat % twoPow 52 = 0 := by
    rw [← toNat_unpackMantissa, ← BitVec.toNat_inj]
    rfl
  have hBias :
      (Format.binary64.exponentBias : Int) + (52 : Nat) =
        1075 := rfl
  simp only [ofBits, hBits, ← isNegative_unpackSign]
  delta UnpackedFloat.unpack
  dsimp only
  by_cases hTop : b.toNat / twoPow 52 % twoPow 11 = 2047
  · rw [if_pos hTop, if_pos (hOnes.mpr hTop)]
    by_cases hNone : b.toNat % twoPow 52 = 0
    · rw [if_pos hNone, if_pos (hFraction.mpr hNone)]
      rfl
    · rw [if_neg hNone,
        if_neg (fun h => hNone (hFraction.mp h))]
      rfl
  · rw [if_neg hTop, if_neg (fun h => hTop (hOnes.mp h))]
    by_cases hLow : b.toNat / twoPow 52 % twoPow 11 = 0
    · rw [if_pos hLow, if_pos (hZeros.mpr hLow)]
      by_cases hNone : b.toNat % twoPow 52 = 0
      · rw [dif_pos (hFraction.mpr hNone), hNone]
        rfl
      · rw [dif_neg (fun h => hNone (hFraction.mp h)),
          ofUnpacked_finite, toNat_unpackMantissa,
          toNat_unpackExponent, hLow, hBias]
        rfl
    · rw [if_neg hLow, if_neg (fun h => hLow (hZeros.mp h))]
      rw [ofUnpacked_finite, toNat_unpackExponent, hBias,
        toNat_one_append, toNat_unpackMantissa]

/- The meaning of a double is that of its fields. -/
theorem ofFloat_eq_ofUnpacked (x : Float) :
    ofFloat x = ofUnpacked x.toModel.unpack :=
  ofBits_eq_ofUnpacked rfl

/- The finite doubles are those that have a value. -/
theorem exists_exactValue?_iff {x : Float} :
    (∃ v, exactValue? x = some v) ↔ x.isFinite = true := by
  have hFinite :
      x.isFinite = x.toModel.unpack.isFinite := rfl
  rw [exactValue?, ofFloat_eq_ofUnpacked, hFinite]
  cases x.toModel.unpack with
  | notANumber =>
      constructor
      · rintro ⟨v, hNone⟩
        cases hNone
      · intro hFalse
        exact absurd hFalse Bool.false_ne_true
  | infinity s =>
      constructor
      · rintro ⟨v, hNone⟩
        cases hNone
      · intro hFalse
        exact absurd hFalse Bool.false_ne_true
  | zero s =>
      exact ⟨fun _ => rfl, fun _ => ⟨_, rfl⟩⟩
  | finite s m q hPos =>
      exact ⟨fun _ => rfl, fun _ => ⟨_, rfl⟩⟩

------------------------------------------------------------
-- Canonical Fields
------------------------------------------------------------

/-
  A significand of 53 bits at most, which is full unless the
  exponent is the least one.
-/
structure IsCanonical
    (m : Nat)
    (q : Int) : Prop where
  lt : m < 2 ^ 53
  le : -1074 ≤ q
  full : -1074 < q → 2 ^ 52 ≤ m

/- The fields of a word are canonical. -/
theorem isCanonical_of_unpack
    {s : Sign}
    {m : Nat}
    {q : Int}
    {hPos : 0 < m}
    (hUnpack :
      UnpackedFloat.unpack Format.binary64 b =
        .finite s m q hPos) :
    IsCanonical m q := by
  have hBias :
      (Format.binary64.exponentBias : Int) + (52 : Nat) =
        1075 := rfl
  have hFraction :
      (UnpackedFloat.unpackMantissa b).toNat < 2 ^ 52 :=
    (UnpackedFloat.unpackMantissa b).isLt
  have hFull :
      (1#1 ++ UnpackedFloat.unpackMantissa b).toNat =
        2 ^ 52 + (UnpackedFloat.unpackMantissa b).toNat :=
    toNat_one_append _
  delta UnpackedFloat.unpack at hUnpack
  dsimp only at hUnpack
  by_cases hTop : UnpackedFloat.unpackExponent b = -1#_
  · rw [if_pos hTop] at hUnpack
    by_cases hNone : UnpackedFloat.unpackMantissa b = 0#_
    · rw [if_pos hNone] at hUnpack
      cases hUnpack
    · rw [if_neg hNone] at hUnpack
      cases hUnpack
  · rw [if_neg hTop] at hUnpack
    by_cases hLow : UnpackedFloat.unpackExponent b = 0#_
    · rw [if_pos hLow] at hUnpack
      by_cases hNone : UnpackedFloat.unpackMantissa b = 0#_
      · rw [dif_pos hNone] at hUnpack
        cases hUnpack
      · rw [dif_neg hNone,
          UnpackedFloat.finite.injEq] at hUnpack
        rcases hUnpack with ⟨_, rfl, rfl⟩
        rw [hLow, hBias]
        exact ⟨by omega, by simp, by simp⟩
    · have hNonzero :
          (UnpackedFloat.unpackExponent b).toNat ≠ 0 := by
        intro hZero
        exact hLow (BitVec.toNat_inj.mp hZero)
      rw [if_neg hLow,
        UnpackedFloat.finite.injEq] at hUnpack
      rcases hUnpack with ⟨_, rfl, rfl⟩
      rw [hFull, hBias]
      exact ⟨by omega, by omega, by omega⟩

section Canonical

variable {m₁ m₂ : Nat}
variable {q₁ q₂ : Int}
variable (hFirst : IsCanonical m₁ q₁)
variable (hSecond : IsCanonical m₂ q₂)

include hFirst hSecond

/- A smaller exponent means a smaller magnitude. -/
theorem magnitude_lt_of_lt (hLt : q₁ < q₂) :
    magnitude m₁ q₁ < magnitude m₂ q₂ := by
  have hFull : 2 ^ 52 ≤ m₂ :=
    hSecond.full (lt_of_le_of_lt hFirst.le hLt)
  have hPower : (0 : ℚ) < 2 ^ q₁ := by
    positivity
  calc magnitude m₁ q₁
      < (2 ^ 53 : ℕ) * 2 ^ q₁ := by
        apply mul_lt_mul_of_pos_right _ hPower
        exact_mod_cast hFirst.lt
    _ = (2 ^ 52 : ℕ) * 2 ^ (q₁ + 1) := by
        rw [zpow_add_one₀ (by norm_num)]
        push_cast
        ring
    _ ≤ (2 ^ 52 : ℕ) * 2 ^ q₂ := by
        apply mul_le_mul_of_nonneg_left _ (by positivity)
        exact zpow_le_zpow_right₀ (by norm_num) hLt
    _ ≤ magnitude m₂ q₂ := by
        apply mul_le_mul_of_nonneg_right _ (by positivity)
        exact_mod_cast hFull

/- Exponent before significand is the order of values. -/
theorem compare_magnitude :
    (compare q₁ q₂).then (compare m₁ m₂) =
      compare (magnitude m₁ q₁) (magnitude m₂ q₂) := by
  rcases lt_trichotomy q₁ q₂ with hLt | rfl | hGt
  · rw [compare_lt_iff_lt.mpr hLt,
      compare_lt_iff_lt.mpr
        (magnitude_lt_of_lt hFirst hSecond hLt)]
    rfl
  · have hPower : (0 : ℚ) < 2 ^ q₁ := by
      positivity
    rw [compare_eq_iff_eq.mpr rfl]
    rcases lt_trichotomy m₁ m₂ with hLt | rfl | hGt
    · have hValues : magnitude m₁ q₁ < magnitude m₂ q₁ :=
        mul_lt_mul_of_pos_right (by exact_mod_cast hLt)
          hPower
      rw [compare_lt_iff_lt.mpr hLt,
        compare_lt_iff_lt.mpr hValues]
      rfl
    · rw [compare_eq_iff_eq.mpr rfl,
        compare_eq_iff_eq.mpr rfl]
      rfl
    · have hValues : magnitude m₂ q₁ < magnitude m₁ q₁ :=
        mul_lt_mul_of_pos_right (by exact_mod_cast hGt)
          hPower
      rw [compare_gt_iff_gt.mpr hGt,
        compare_gt_iff_gt.mpr hValues]
      rfl
  · rw [compare_gt_iff_gt.mpr hGt,
      compare_gt_iff_gt.mpr
        (magnitude_lt_of_lt hSecond hFirst hGt)]
    rfl

end Canonical

------------------------------------------------------------
-- Comparing
------------------------------------------------------------

/- Negation turns the order round. -/
theorem compare_neg_neg (x y : ℚ) :
    compare (-x) (-y) = (compare x y).swap := by
  rcases lt_trichotomy x y with hLt | rfl | hGt
  · rw [compare_lt_iff_lt.mpr hLt,
      compare_gt_iff_gt.mpr (neg_lt_neg hLt)]
    rfl
  · rw [compare_eq_iff_eq.mpr rfl,
      compare_eq_iff_eq.mpr rfl]
    rfl
  · rw [compare_gt_iff_gt.mpr hGt,
      compare_lt_iff_lt.mpr (neg_lt_neg hGt)]
    rfl

/- Both zeros have the value zero. -/
theorem value?_zero (s : Sign) :
    (ofUnpacked (.zero s)).value? = some 0 := by
  have hNothing : magnitude 0 (-1074) = 0 := by
    simp [magnitude]
  have hValue :
      (ofUnpacked (.zero s)).value? =
        some
          (signed (isNegative s) (magnitude 0 (-1074))) :=
    rfl
  rw [hValue, hNothing]
  cases s with
  | negative =>
      rw [isNegative, signed_true, neg_zero]
  | positive =>
      rw [isNegative, signed_false]

theorem exactValue?_zero : exactValue? 0 = some 0 := by
  rw [exactValue?, ofFloat_eq_ofUnpacked]
  exact value?_zero .positive

theorem exactValue?_one : exactValue? 1.0 = some 1 := by
  have hFields :
      ofFloat 1.0 =
        .finite false 4503599627370496 (-52) := rfl
  rw [exactValue?, hFields, value?]
  norm_num [magnitude]

/- All fields that have a value. -/
theorem value?_eq_some_cases
    {u : UnpackedFloat}
    {x : ℚ}
    (hValue : (ofUnpacked u).value? = some x) :
    (∃ s, u = .zero s ∧ x = 0) ∨
      ∃ s m q hPos,
        u = .finite s m q hPos ∧
          x = signed (isNegative s) (magnitude m q) := by
  cases u with
  | notANumber => cases hValue
  | infinity s => cases hValue
  | zero s =>
      rw [value?_zero] at hValue
      exact .inl ⟨s, rfl, (Option.some.inj hValue).symm⟩
  | finite s m q hPos =>
      exact .inr ⟨s, m, q, hPos, rfl,
        (Option.some.inj hValue).symm⟩

/- A zero compares with a number as its value does. -/
theorem compare_zero
    {s : Sign}
    {u : UnpackedFloat}
    {y : ℚ}
    (hValue : (ofUnpacked u).value? = some y) :
    (UnpackedFloat.zero s).compare u = some (compare 0 y) ∧
      u.compare (.zero s) = some (compare y 0) := by
  rcases value?_eq_some_cases hValue with
    ⟨s₂, rfl, rfl⟩ | ⟨s₂, m, q, hPos, rfl, rfl⟩
  · rw [compare_eq_iff_eq.mpr rfl]
    exact ⟨rfl, rfl⟩
  · have hMagnitude := magnitude_pos q hPos
    cases s₂ with
    | negative =>
        have hNegative := neg_lt_zero.mpr hMagnitude
        rw [isNegative, signed_true,
          compare_gt_iff_gt.mpr hNegative,
          compare_lt_iff_lt.mpr hNegative]
        exact ⟨rfl, rfl⟩
    | positive =>
        rw [isNegative, signed_false,
          compare_lt_iff_lt.mpr hMagnitude,
          compare_gt_iff_gt.mpr hMagnitude]
        exact ⟨rfl, rfl⟩

/- Numbers that are not zero compare as their values do. -/
theorem compare_finite
    {s₁ s₂ : Sign}
    {m₁ m₂ : Nat}
    {q₁ q₂ : Int}
    (hPos₁ : 0 < m₁)
    (hPos₂ : 0 < m₂)
    (hFirst : IsCanonical m₁ q₁)
    (hSecond : IsCanonical m₂ q₂) :
    (UnpackedFloat.finite s₁ m₁ q₁ hPos₁).compare
        (.finite s₂ m₂ q₂ hPos₂) =
      some
        (compare
          (signed (isNegative s₁) (magnitude m₁ q₁))
          (signed (isNegative s₂) (magnitude m₂ q₂))) := by
  have hMagnitude₁ := magnitude_pos q₁ hPos₁
  have hMagnitude₂ := magnitude_pos q₂ hPos₂
  have hCompare := compare_magnitude hFirst hSecond
  cases s₁ with
  | negative =>
      have hNegative := neg_lt_zero.mpr hMagnitude₁
      cases s₂ with
      | negative =>
          rw [isNegative, signed_true, signed_true,
            compare_neg_neg, ← hCompare]
          rfl
      | positive =>
          rw [isNegative, isNegative, signed_true,
            signed_false,
            compare_lt_iff_lt.mpr
              (hNegative.trans hMagnitude₂)]
          rfl
  | positive =>
      have hNegative := neg_lt_zero.mpr hMagnitude₂
      cases s₂ with
      | negative =>
          rw [isNegative, isNegative, signed_true,
            signed_false,
            compare_gt_iff_gt.mpr
              (hNegative.trans hMagnitude₁)]
          rfl
      | positive =>
          exact congrArg some hCompare

theorem lt_iff_compare {x y : Float} :
    x < y ↔
      (x.toModel.unpack.compare y.toModel.unpack ==
        some .lt) = true := by
  show Float.lt x y = true ↔ _
  rw [Float.lt, decide_eq_true_iff]
  rfl

theorem le_iff_compare {x y : Float} :
    x ≤ y ↔
      (x.toModel.unpack.compare y.toModel.unpack).any
        (·.isLE) = true := by
  show Float.le x y = true ↔ _
  rw [Float.le, decide_eq_true_iff]
  rfl

theorem le_of_lt
    {x y : Float}
    (hLt : x < y) :
    x ≤ y := by
  rw [lt_iff_compare, beq_iff_eq] at hLt
  rw [le_iff_compare, hLt]
  rfl

section Comparing

variable {x y : Float}
variable {v w : ℚ}
variable (hFirst : exactValue? x = some v)
variable (hSecond : exactValue? y = some w)

include hFirst hSecond

/- Doubles compare as their exact values do. -/
theorem compare_unpack :
    x.toModel.unpack.compare y.toModel.unpack =
      some (compare v w) := by
  rw [exactValue?, ofFloat_eq_ofUnpacked] at hFirst hSecond
  rcases value?_eq_some_cases hFirst with
    ⟨s₁, hX, rfl⟩ | ⟨s₁, m₁, q₁, hPos₁, hX, rfl⟩
  · rw [hX]
    exact (compare_zero hSecond).1
  · rcases value?_eq_some_cases hSecond with
      ⟨s₂, hY, rfl⟩ | ⟨s₂, m₂, q₂, hPos₂, hY, rfl⟩
    · rw [hY]
      exact (compare_zero hFirst).2
    · rw [hX, hY]
      exact compare_finite hPos₁ hPos₂
        (isCanonical_of_unpack hX)
        (isCanonical_of_unpack hY)

/- A double is below another if its value is. -/
theorem lt_iff : x < y ↔ v < w := by
  rw [lt_iff_compare, compare_unpack hFirst hSecond,
    beq_iff_eq, Option.some.injEq, compare_lt_iff_lt]

/- A double is at most another if its value is. -/
theorem le_iff : x ≤ y ↔ v ≤ w := by
  rw [le_iff_compare, compare_unpack hFirst hSecond,
    Option.any_some, Ordering.isLE_iff_ne_gt,
    compare_gt_iff_gt, not_lt]

end Comparing

theorem lt_of_not_le
    {x y : Float}
    (hFirst : x.isFinite = true)
    (hSecond : y.isFinite = true)
    (hNot : ¬ y ≤ x) :
    x < y := by
  rcases exists_exactValue?_iff.mpr hFirst with ⟨v, hV⟩
  rcases exists_exactValue?_iff.mpr hSecond with ⟨w, hW⟩
  rw [le_iff hW hV, not_le] at hNot
  exact (lt_iff hV hW).mpr hNot

section Infinite

variable {x y : Float}
variable {negative : Bool}

/- The fields of an infinite double. -/
theorem exists_unpack_infinity
    (hInfinite : ofFloat x = .infinite negative) :
    ∃ s, x.toModel.unpack = .infinity s ∧
      isNegative s = negative := by
  rw [ofFloat_eq_ofUnpacked] at hInfinite
  cases hFields : x.toModel.unpack with
  | notANumber =>
      rw [hFields] at hInfinite
      cases hInfinite
  | infinity s =>
      rw [hFields] at hInfinite
      exact ⟨s, rfl, Binary.infinite.inj hInfinite⟩
  | zero s =>
      rw [hFields] at hInfinite
      cases hInfinite
  | finite s m q hPos =>
      rw [hFields] at hInfinite
      cases hInfinite

variable {v : ℚ}

/- A number lies between the two infinite doubles. -/
theorem compare_infinite
    (hValue : exactValue? x = some v)
    (hInfinite : ofFloat y = .infinite negative) :
    if negative then y ≤ x else x < y := by
  rcases exists_unpack_infinity hInfinite with ⟨s, hY, rfl⟩
  rw [exactValue?, ofFloat_eq_ofUnpacked] at hValue
  rw [lt_iff_compare, le_iff_compare, hY]
  rcases value?_eq_some_cases hValue with
    ⟨s₁, hX, _⟩ | ⟨s₁, m, q, hPos, hX, _⟩
  · rw [hX]
    cases s <;> rfl
  · rw [hX]
    cases s <;> rfl

end Infinite

------------------------------------------------------------
-- Sums
------------------------------------------------------------

/- What is not finite stays so when it is stored. -/
theorem isFinite_of_isFinite_pack
    {u : UnpackedFloat}
    (hFinite : (Float.Model.pack u).isFinite = true) :
    u.isFinite = true := by
  cases u with
  | notANumber =>
      exact absurd hFinite Bool.false_ne_true
  | infinity s =>
      cases s with
      | negative =>
          exact absurd hFinite Bool.false_ne_true
      | positive =>
          exact absurd hFinite Bool.false_ne_true
  | zero s =>
      rfl
  | finite s m q hPos =>
      rfl

/- Two fields with a finite sum are finite. -/
theorem isFinite_of_isFinite_addFields
    {u v : UnpackedFloat}
    (hFinite :
      (UnpackedFloat.add Format.binary64 u v).isFinite =
        true) :
    u.isFinite = true ∧ v.isFinite = true := by
  cases u with
  | notANumber =>
      cases v <;> exact absurd hFinite Bool.false_ne_true
  | infinity s₁ =>
      cases v with
      | infinity s₂ =>
          cases s₁ <;> cases s₂ <;>
            exact absurd hFinite Bool.false_ne_true
      | notANumber =>
          exact absurd hFinite Bool.false_ne_true
      | zero s₂ =>
          exact absurd hFinite Bool.false_ne_true
      | finite s₂ m q hPos =>
          exact absurd hFinite Bool.false_ne_true
  | zero s =>
      cases v with
      | notANumber =>
          exact absurd hFinite Bool.false_ne_true
      | infinity s₂ =>
          exact absurd hFinite Bool.false_ne_true
      | zero s₂ => exact ⟨rfl, rfl⟩
      | finite s₂ m q hPos => exact ⟨rfl, rfl⟩
  | finite s m q hPos =>
      cases v with
      | notANumber =>
          exact absurd hFinite Bool.false_ne_true
      | infinity s₂ =>
          exact absurd hFinite Bool.false_ne_true
      | zero s₂ => exact ⟨rfl, rfl⟩
      | finite s₂ m₂ q₂ hPos₂ => exact ⟨rfl, rfl⟩

/- A finite sum has a finite first operand. -/
theorem isFinite_of_isFinite_add
    {x y : Float}
    (hFinite : (x + y).isFinite = true) :
    x.isFinite = true :=
  (isFinite_of_isFinite_addFields
    (isFinite_of_isFinite_pack hFinite)).1

end Binary

end Slideshow

import Slideshow.Proofs.Decimal.Rounding

/-
  This file proves that sums, differences and products of
  doubles are the doubles nearest to the exact ones, or
  infinite if these are out of range.

  The fields of a result are rounded before they are stored
  as a word.  A word has room for them unless the exponent
  is too large (`Binary.ofFloat_pack_finite`).

  Key definitions include:
    * `Binary.Rounds`

  Main results include:
    * `Binary.rounds_of_isRounded`
    * `Binary.rounds_add`
    * `Binary.rounds_sub`
    * `Binary.rounds_mul`
    * `Binary.exists_exactValue?_of_rounds`
-/

namespace Slideshow

namespace Binary

open Float.Model (UnpackedFloat Format)
open Float.Model.UnpackedFloat
  (Sign packComponents packedInfinity decreaseExponent)

------------------------------------------------------------
-- Storing Fields
------------------------------------------------------------

section Components

variable {s : Sign}
variable {e : BitVec 11}
variable {f : BitVec 52}

theorem toNat_packComponents :
    (packComponents Format.binary64 s e f).toNat =
      (s.toBitVec.toNat * twoPow 11 + e.toNat) * twoPow 52 +
        f.toNat := by
  show (s.toBitVec ++ e ++ f).toNat = _
  rw [BitVec.toNat_append, BitVec.toNat_append,
    ← Nat.shiftLeft_add_eq_or_of_lt f.isLt,
    ← Nat.shiftLeft_add_eq_or_of_lt e.isLt,
    Nat.shiftLeft_eq, Nat.shiftLeft_eq]
  rfl

/- Decoding a word gives its fields back. -/
theorem ofBits_packComponents :
    ofBits
        (UInt64.ofBitVec
          (packComponents Format.binary64 s e f)) =
      if e.toNat = 2047 then
        if f.toNat = 0 then .infinite (isNegative s) else .nan
      else if e.toNat = 0 then
        .finite (isNegative s) f.toNat (-1074)
      else
        .finite (isNegative s) (twoPow 52 + f.toNat)
          ((e.toNat : Int) - 1075) := by
  have hWord :
      (UInt64.ofBitVec
          (packComponents Format.binary64 s e f)).toNat =
        (s.toBitVec.toNat * 2 ^ 11 + e.toNat) * 2 ^ 52 +
          f.toNat :=
    toNat_packComponents
  have hExponent : e.toNat < 2 ^ 11 := e.isLt
  have hFraction : f.toNat < 2 ^ 52 := f.isLt
  have hPow (k : Nat) : twoPow k = 2 ^ k := rfl
  simp only [ofBits, hWord, hPow]
  have hField :
      ((s.toBitVec.toNat * 2 ^ 11 + e.toNat) * 2 ^ 52 +
          f.toNat) / 2 ^ 52 % 2 ^ 11 = e.toNat := by
    omega
  have hRest :
      ((s.toBitVec.toNat * 2 ^ 11 + e.toNat) * 2 ^ 52 +
          f.toNat) % 2 ^ 52 = f.toNat := by
    omega
  have hSign :
      decide
          (2 ^ 63 ≤
            (s.toBitVec.toNat * 2 ^ 11 + e.toNat) * 2 ^ 52 +
              f.toNat) = isNegative s := by
    cases s with
    | negative =>
        apply decide_eq_true
        show 2 ^ 63 ≤ (1 * 2 ^ 11 + e.toNat) * 2 ^ 52 + f.toNat
        omega
    | positive =>
        apply decide_eq_false
        show ¬ 2 ^ 63 ≤
          (0 * 2 ^ 11 + e.toNat) * 2 ^ 52 + f.toNat
        omega
  rw [hField, hRest, hSign]

end Components

/-
  Canonical fields are found again in the word, unless the
  exponent is too large for it.
-/
theorem ofFloat_pack_finite
    {s : Sign}
    {m : Nat}
    {q : Int}
    (hPos : 0 < m)
    (hCanonical : IsCanonical m q) :
    ofFloat
        (Float.ofModel
          (Float.Model.pack (.finite s m q hPos))) =
      if q ≤ 971 then .finite (isNegative s) m q
      else .infinite (isNegative s) := by
  have hBits :
      ofFloat
          (Float.ofModel
            (Float.Model.pack (.finite s m q hPos))) =
        ofBits
          (UInt64.ofBitVec
            (UnpackedFloat.pack Format.binary64
              (.finite s m q hPos))) := rfl
  have hUpper := hCanonical.lt
  have hLow := hCanonical.le
  have hLimit :
      2 ^ 11 ≤ (q + (1023 : ℕ) + (52 : ℕ)).toNat + 1 ↔
        ¬ q ≤ 971 := by
    omega
  have hPack :
      UnpackedFloat.pack Format.binary64 (.finite s m q hPos) =
        if 2 ^ 11 ≤ (q + (1023 : ℕ) + (52 : ℕ)).toNat + 1 then
          packedInfinity Format.binary64 s
        else if m.log2 + 1 = 53 then
          packComponents Format.binary64 s
            (BitVec.ofNat _ (q + (1023 : ℕ) + (52 : ℕ)).toNat)
            (BitVec.ofNat _ m)
        else
          packComponents Format.binary64 s 0#_
            (BitVec.ofNat _ m) := rfl
  have hLog : m.log2 + 1 = 53 ↔ 2 ^ 52 ≤ m := by
    rw [← Nat.le_log2 hPos.ne']
    have := (Nat.log2_lt hPos.ne').mpr hUpper
    omega
  rw [hBits, hPack]
  by_cases hFits : q ≤ 971
  · rw [if_neg (by omega), if_pos hFits]
    by_cases hFull : 2 ^ 52 ≤ m
    · have hExponent :
          (BitVec.ofNat 11
              (q + (1023 : ℕ) + (52 : ℕ)).toNat).toNat =
            (q + 1075).toNat := by
        rw [BitVec.toNat_ofNat]
        omega
      have hFraction :
          (BitVec.ofNat 52 m).toNat = m - 2 ^ 52 := by
        rw [BitVec.toNat_ofNat]
        omega
      have hSignificand : twoPow 52 + (m - 2 ^ 52) = m :=
        Nat.add_sub_cancel' hFull
      have hValue : ((q + 1075).toNat : Int) - 1075 = q := by
        omega
      rw [if_pos (hLog.mpr hFull), ofBits_packComponents,
        hExponent, hFraction, if_neg (by omega),
        if_neg (by omega), hSignificand, hValue]
    · have hLeast : q = -1074 := by
        have := hCanonical.full
        omega
      have hFraction : (BitVec.ofNat 52 m).toNat = m := by
        rw [BitVec.toNat_ofNat]
        omega
      rw [if_neg (mt hLog.mp hFull), ofBits_packComponents,
        hFraction, hLeast]
      rfl
  · rw [if_pos (by omega), if_neg hFits]
    exact ofBits_packComponents

------------------------------------------------------------
-- Rounded Doubles
------------------------------------------------------------

/- The least power of two that no double reaches. -/
def rangeEnd : ℚ :=
  2 ^ (1024 : ℤ)

/-
  A double is the number nearest to a fraction, or infinite
  if that number is out of range.
-/
def Rounds
    (z : Float)
    (x : ℚ) : Prop :=
  if |nearest x| < rangeEnd then
    exactValue? z = some (nearest x)
  else ofFloat z = .infinite (decide (nearest x < 0))

/- The numbers in range are those with small exponents. -/
theorem magnitude_lt_iff
    {m : Nat}
    {q : Int}
    (hCanonical : IsCanonical m q) :
    magnitude m q < rangeEnd ↔ q ≤ 971 := by
  have hPower : (0 : ℚ) < 2 ^ q := by
    positivity
  constructor
  · intro hLt
    by_contra hLarge
    have hFull : ((2 ^ 52 : ℕ) : ℚ) ≤ m := by
      exact_mod_cast hCanonical.full (by omega)
    apply absurd hLt
    rw [not_lt]
    calc rangeEnd
        = (2 ^ 52 : ℕ) * 2 ^ (972 : ℤ) := by
          rw [Nat.cast_pow, Nat.cast_ofNat, ← zpow_natCast,
            ← zpow_add₀ two_ne_zero]
          rfl
      _ ≤ (2 ^ 52 : ℕ) * 2 ^ q :=
          mul_le_mul_of_nonneg_left
            (zpow_le_zpow_right₀ one_le_two (by omega))
            (by positivity)
      _ ≤ magnitude m q :=
          mul_le_mul_of_nonneg_right hFull hPower.le
  · intro hSmall
    have hUpper : (m : ℚ) < (2 ^ 53 : ℕ) := by
      exact_mod_cast hCanonical.lt
    calc magnitude m q
        < (2 ^ 53 : ℕ) * 2 ^ q :=
          mul_lt_mul_of_pos_right hUpper hPower
      _ ≤ (2 ^ 53 : ℕ) * 2 ^ (971 : ℤ) :=
          mul_le_mul_of_nonneg_left
            (zpow_le_zpow_right₀ one_le_two hSmall)
            (by positivity)
      _ = rangeEnd := by
          rw [Nat.cast_pow, Nat.cast_ofNat, ← zpow_natCast,
            ← zpow_add₀ two_ne_zero]
          rfl

theorem abs_signed
    {x : ℚ}
    (negative : Bool)
    (hPos : 0 < x) :
    |signed negative x| = x := by
  cases negative with
  | false => exact abs_of_pos hPos
  | true => exact (abs_neg x).trans (abs_of_pos hPos)

theorem decide_signed_lt
    {x : ℚ}
    (negative : Bool)
    (hPos : 0 < x) :
    decide (signed negative x < 0) = negative := by
  cases negative with
  | false => exact decide_eq_false hPos.not_gt
  | true => exact decide_eq_true (neg_lt_zero.mpr hPos)

/- Rounded fields are stored as the nearest double. -/
theorem rounds_of_isRounded
    {u : UnpackedFloat}
    {x : ℚ}
    (hRounded : IsRounded u x) :
    Rounds (Float.ofModel (Float.Model.pack u)) x := by
  rcases hRounded with ⟨hStored, hValue⟩
  rcases value?_eq_some_cases hValue with
    ⟨s, rfl, hZero⟩ | ⟨s, m, q, hPos, rfl, hNearest⟩
  · have hWord :
        ofFloat
            (Float.ofModel (Float.Model.pack (.zero s))) =
          ofUnpacked (.zero s) := by
      cases s with
      | negative => rfl
      | positive => rfl
    have hInside : (0 : ℚ) < rangeEnd := by
      unfold rangeEnd
      positivity
    rw [Rounds, hZero, abs_zero, if_pos hInside, exactValue?,
      hWord, value?_zero]
  · have hMagnitude := magnitude_pos q hPos
    have hRange := magnitude_lt_iff hStored
    rw [Rounds, hNearest, abs_signed _ hMagnitude,
      decide_signed_lt _ hMagnitude, exactValue?,
      ofFloat_pack_finite hPos hStored]
    by_cases hFits : q ≤ 971
    · rw [if_pos (hRange.mpr hFits), if_pos hFits]
      rfl
    · rw [if_neg (mt hRange.mp hFits), if_neg hFits]

------------------------------------------------------------
-- Sums of Fields
------------------------------------------------------------

/- Canonical fields are those of the number nearest to it. -/
theorem isRounded_of_isStored
    {u : UnpackedFloat}
    {x : ℚ}
    (hStored : IsStored u)
    (hValue : (ofUnpacked u).value? = some x) :
    IsRounded u x := by
  refine ⟨hStored, hValue.trans (congrArg some ?_)⟩
  rcases value?_eq_some_cases hValue with
    ⟨s, rfl, rfl⟩ | ⟨s, m, q, hPos, rfl, rfl⟩
  · exact nearest_zero.symm
  · rw [nearest_signed,
      nearest_magnitude hStored.lt hStored.le]

theorem isRounded_zero (s : Sign) :
    IsRounded (.zero s) 0 :=
  isRounded_of_isStored trivial (value?_zero s)

theorem cast_apply
    (s : Sign)
    (n : Nat) :
    ((s.apply n : ℤ) : ℚ) = signed (isNegative s) n := by
  cases s with
  | negative => exact Int.cast_neg _
  | positive => rfl

/- A smaller exponent does not change a number. -/
theorem apply_decreaseExponent
    {q target : ℤ}
    (s : Sign)
    (m : Nat)
    (hLe : target ≤ q) :
    ((s.apply (decreaseExponent m q target).1 : ℤ) : ℚ) *
        2 ^ target =
      signed (isNegative s) (magnitude m q) := by
  have hValue :=
    magnitude_shiftLeft (m := m) (q := q) (q - target).toNat
  have hExponent : q - ((q - target).toNat : ℤ) = target := by
    omega
  rw [hExponent] at hValue
  rw [cast_apply, ← hValue]
  cases s with
  | negative => exact neg_mul _ _
  | positive => rfl

/- A sum of canonical fields is rounded. -/
theorem isRounded_add
    {u v : UnpackedFloat}
    {x y : ℚ}
    (hFirst : IsStored u)
    (hSecond : IsStored v)
    (hX : (ofUnpacked u).value? = some x)
    (hY : (ofUnpacked v).value? = some y) :
    IsRounded (UnpackedFloat.add Format.binary64 u v)
      (x + y) := by
  rcases value?_eq_some_cases hX with
    ⟨s₁, rfl, rfl⟩ | ⟨s₁, m₁, q₁, hPos₁, rfl, rfl⟩
  · rw [zero_add]
    rcases value?_eq_some_cases hY with
      ⟨s₂, rfl, rfl⟩ | ⟨s₂, m₂, q₂, hPos₂, rfl, _⟩
    · cases s₁ <;> cases s₂ <;> exact isRounded_zero _
    · exact isRounded_of_isStored hSecond hY
  · rcases value?_eq_some_cases hY with
      ⟨s₂, rfl, rfl⟩ | ⟨s₂, m₂, q₂, hPos₂, rfl, rfl⟩
    · rw [add_zero]
      exact isRounded_of_isStored hFirst hX
    · rw [← apply_decreaseExponent s₁ m₁ (min_le_left q₁ q₂),
        ← apply_decreaseExponent s₂ m₂ (min_le_right q₁ q₂),
        ← add_mul, ← Int.cast_add]
      exact isRounded_normalize _ _

/- A difference is the sum with the mirror image. -/
theorem subFields_eq (u v : UnpackedFloat) :
    UnpackedFloat.sub Format.binary64 u v =
      UnpackedFloat.add Format.binary64 u v.neg := by
  cases u with
  | notANumber => cases v <;> rfl
  | infinity s₁ => cases v <;> rfl
  | zero s₁ => cases v <;> rfl
  | finite s₁ m₁ q₁ hPos₁ =>
      cases v with
      | notANumber => rfl
      | infinity s₂ => rfl
      | zero s₂ => rfl
      | finite s₂ m₂ q₂ hPos₂ =>
          cases s₂ with
          | positive => rfl
          | negative =>
              exact congrArg
                (fun n => UnpackedFloat.normalize
                  Format.binary64 n (min q₁ q₂) .positive)
                (sub_neg_eq_add _ _)

/- Two doubles with a finite difference are finite. -/
theorem isFinite_of_isFinite_sub
    {x y : Float}
    (hFinite : (x - y).isFinite = true) :
    x.isFinite = true ∧ y.isFinite = true := by
  have hFields :
      (UnpackedFloat.sub Format.binary64 x.toModel.unpack
        y.toModel.unpack).isFinite = true :=
    isFinite_of_isFinite_pack hFinite
  rw [subFields_eq] at hFields
  rcases isFinite_of_isFinite_addFields hFields with
    ⟨hFirst, hSecond⟩
  refine ⟨hFirst, ?_⟩
  show y.toModel.unpack.isFinite = true
  rw [← hSecond]
  cases y.toModel.unpack <;> rfl

/- The mirror image of canonical fields. -/
theorem isStored_neg
    {v : UnpackedFloat}
    {y : ℚ}
    (hStored : IsStored v)
    (hValue : (ofUnpacked v).value? = some y) :
    IsStored v.neg ∧
      (ofUnpacked v.neg).value? = some (-y) := by
  rcases value?_eq_some_cases hValue with
    ⟨s, rfl, rfl⟩ | ⟨s, m, q, hPos, rfl, rfl⟩
  · rw [neg_zero]
    exact ⟨trivial, value?_zero _⟩
  · refine ⟨hStored, congrArg some ?_⟩
    cases s with
    | negative => exact (neg_neg _).symm
    | positive => rfl

------------------------------------------------------------
-- Products of Fields
------------------------------------------------------------

/- A product of canonical significands has bits to take off. -/
theorem add_le_exponentAt
    {m₁ m₂ : Nat}
    {q₁ q₂ : Int}
    (hPos₁ : 0 < m₁)
    (hPos₂ : 0 < m₂)
    (hFirst : IsCanonical m₁ q₁)
    (hSecond : IsCanonical m₂ q₂) :
    q₁ + q₂ ≤ exponentAt (magnitude (m₁ * m₂) (q₁ + q₂)) := by
  have hPos := Nat.mul_pos hPos₁ hPos₂
  have hLow₁ := hFirst.le
  have hLow₂ := hSecond.le
  rw [exponentAt, log_magnitude hPos, le_max_iff]
  rcases le_or_gt (q₁ + q₂) (-1074) with hLe | hGt
  · exact .inr hLe
  · -- One of the two exponents is not the least one.
    have hFull : 2 ^ 52 ≤ m₁ * m₂ := by
      rcases lt_or_ge (-1074) q₁ with hAbove | hLeast
      · exact (hFirst.full hAbove).trans
          (Nat.le_mul_of_pos_right m₁ hPos₂)
      · exact (hSecond.full (by omega)).trans
          (Nat.le_mul_of_pos_left m₂ hPos₁)
    have hLog := (Nat.le_log2 hPos.ne').mpr hFull
    exact .inl (by omega)

/- Signs and sizes are multiplied one by one. -/
theorem signed_mul_signed
    (s₁ s₂ : Sign)
    (m₁ m₂ : Nat)
    (q₁ q₂ : Int) :
    signed (isNegative s₁) (magnitude m₁ q₁) *
        signed (isNegative s₂) (magnitude m₂ q₂) =
      signed (isNegative (s₁ * s₂))
        (magnitude (m₁ * m₂) (q₁ + q₂)) := by
  have hSize :
      magnitude m₁ q₁ * magnitude m₂ q₂ =
        magnitude (m₁ * m₂) (q₁ + q₂) := by
    rw [magnitude, magnitude, magnitude,
      zpow_add₀ two_ne_zero]
    push_cast
    ring
  rw [← hSize]
  cases s₁ with
  | negative =>
      cases s₂ with
      | negative => exact neg_mul_neg _ _
      | positive => exact neg_mul _ _
  | positive =>
      cases s₂ with
      | negative => exact mul_neg _ _
      | positive => rfl

/- A product of canonical fields is rounded. -/
theorem isRounded_mul
    {u v : UnpackedFloat}
    {x y : ℚ}
    (hFirst : IsStored u)
    (hSecond : IsStored v)
    (hX : (ofUnpacked u).value? = some x)
    (hY : (ofUnpacked v).value? = some y) :
    IsRounded (UnpackedFloat.mul Format.binary64 u v)
      (x * y) := by
  rcases value?_eq_some_cases hX with
    ⟨s₁, rfl, rfl⟩ | ⟨s₁, m₁, q₁, hPos₁, rfl, rfl⟩
  · rw [zero_mul]
    rcases value?_eq_some_cases hY with
      ⟨s₂, rfl, _⟩ | ⟨s₂, m₂, q₂, hPos₂, rfl, _⟩
    · exact isRounded_zero _
    · exact isRounded_zero _
  · rcases value?_eq_some_cases hY with
      ⟨s₂, rfl, rfl⟩ | ⟨s₂, m₂, q₂, hPos₂, rfl, rfl⟩
    · rw [mul_zero]
      exact isRounded_zero _
    · rw [signed_mul_signed]
      exact isRounded_roundWithAccuracy
        (Nat.mul_pos hPos₁ hPos₂)
        (add_le_exponentAt hPos₁ hPos₂ hFirst hSecond)

------------------------------------------------------------
-- Operations
------------------------------------------------------------

theorem isStored_unpack (x : Float) :
    IsStored x.toModel.unpack := by
  cases hFields : x.toModel.unpack with
  | notANumber => trivial
  | infinity s => trivial
  | zero s => trivial
  | finite s m q hPos => exact isCanonical_of_unpack hFields

theorem value?_unpack (x : Float) :
    (ofUnpacked x.toModel.unpack).value? = exactValue? x := by
  rw [exactValue?, ofFloat_eq_ofUnpacked]

section Operations

variable {x y : Float}
variable {v w : ℚ}
variable (hX : exactValue? x = some v)
variable (hY : exactValue? y = some w)

include hX hY

/- The sum of two doubles is the exact one, rounded. -/
theorem rounds_add : Rounds (x + y) (v + w) :=
  rounds_of_isRounded
    (isRounded_add (isStored_unpack x) (isStored_unpack y)
      ((value?_unpack x).trans hX)
      ((value?_unpack y).trans hY))

/- The difference of two doubles is the exact one, rounded. -/
theorem rounds_sub : Rounds (x - y) (v - w) := by
  rcases isStored_neg (isStored_unpack y)
      ((value?_unpack y).trans hY) with ⟨hStored, hValue⟩
  have hRounded :=
    isRounded_add (isStored_unpack x) hStored
      ((value?_unpack x).trans hX) hValue
  rw [← subFields_eq, ← sub_eq_add_neg] at hRounded
  exact rounds_of_isRounded hRounded

/- The product of two doubles is the exact one, rounded. -/
theorem rounds_mul : Rounds (x * y) (v * w) :=
  rounds_of_isRounded
    (isRounded_mul (isStored_unpack x) (isStored_unpack y)
      ((value?_unpack x).trans hX)
      ((value?_unpack y).trans hY))

end Operations

------------------------------------------------------------
-- Rounded Doubles
------------------------------------------------------------

section Rounded

variable {z : Float}
variable {x : ℚ}
variable (hRounds : Rounds z x)

include hRounds

/- A result within rounded bounds is finite. -/
theorem exists_exactValue?_of_rounds
    {limit : ℚ}
    (hLimit : nearest limit = limit)
    (hRange : limit < rangeEnd)
    (hLe : |x| ≤ limit) :
    ∃ v, exactValue? z = some v ∧ |v| ≤ limit := by
  have hBound := abs_nearest_le hLimit hLe
  rw [Rounds, if_pos (hBound.trans_lt hRange)] at hRounds
  exact ⟨nearest x, hRounds, hBound⟩

theorem pos_of_rounds (hNot : ¬ z ≤ 0) : 0 < z := by
  unfold Rounds at hRounds
  split_ifs at hRounds with hRange
  · rw [le_iff hRounds exactValue?_zero, not_le] at hNot
    exact (lt_iff exactValue?_zero hRounds).mpr hNot
  · have hCompare := compare_infinite exactValue?_zero hRounds
    split_ifs at hCompare with hNegative
    · exact absurd hCompare hNot
    · exact hCompare

end Rounded

end Binary

end Slideshow

import Slideshow.Proofs.Decimal.Arithmetic
import Slideshow.Proofs.Outcome
import Slideshow.Timing

/-
  This file proves what clock values and ranges are made of
  when they are read, and which of them are finite.

  Each field of a clock value is tested, but not the seconds
  that are computed from them.  Products and sums of numbers
  that are small enough stay in range, which is followed
  through the computation with whole multiples of one large
  power of two (`Clock.IsWithin`).

  Key definitions include:
    * `Clock.IsWithin`
    * `Clock.isModerate`
    * `TimeRange.isModerate`

  Main results include:
    * `Clock.read_eq_ok_iff`
    * `TimeRange.read_eq_ok_iff`
    * `Clock.isFinite_of_isModerate`
    * `TimeRange.isFinite_of_isModerate`
    * `TimeRange.duration_pos_of_not_le`
-/

namespace Slideshow

------------------------------------------------------------
-- Clock Values
------------------------------------------------------------

namespace Clock

/- A field is read if it is a finite number. -/
theorem readField_eq_ok_iff
    {clock field : String}
    {x : Float} :
    readField clock field = .ok x ↔
      Decimal.read? (Text.trim field).toList = some x ∧
        x.isFinite = true := by
  unfold readField
  cases Decimal.read? (Text.trim field).toList with
  | none => simp
  | some y =>
      cases hFinite : y.isFinite with
      | false =>
          simp only [hFinite, Option.some.injEq]
          constructor
          · intro hError
            cases hError
          · rintro ⟨rfl, hTrue⟩
            rw [hFinite] at hTrue
            cases hTrue
      | true =>
          simp only [hFinite, if_true, Except.ok.injEq,
            Option.some.injEq]
          constructor
          · rintro rfl
            exact ⟨rfl, hFinite⟩
          · rintro ⟨rfl, _⟩
            rfl

/- A clock value is made of three fields. -/
theorem read_eq_ok_iff
    {s : String}
    {x : Float} :
    read s = .ok x ↔
      ∃ hours minutes seconds h m sec,
        Text.split ':' (Text.trim s) =
            [hours, minutes, seconds] ∧
          readField s hours = .ok h ∧
          readField s minutes = .ok m ∧
          readField s seconds = .ok sec ∧
          x = h * 3600.0 + m * 60.0 + sec := by
  unfold read
  constructor
  · intro hRead
    split at hRead
    · rename_i hours minutes seconds hSplit
      simp only [Outcome.bind_eq_ok_iff] at hRead
      rcases hRead with ⟨h, hHours, m, hMinutes, sec,
        hSeconds, hValue⟩
      cases hValue
      exact ⟨hours, minutes, seconds, h, m, sec, hSplit,
        hHours, hMinutes, hSeconds, rfl⟩
    · cases hRead
  · rintro ⟨hours, minutes, seconds, h, m, sec, hSplit,
      hHours, hMinutes, hSeconds, rfl⟩
    rw [hSplit]
    simp only [hHours, hMinutes, hSeconds]
    rfl

end Clock

/- A range is made of two clock values. -/
theorem TimeRange.read_eq_ok_iff
    {s : String}
    {range : TimeRange} :
    read s = .ok range ↔
      ∃ start stop,
        Text.splitText separator s = [start, stop] ∧
          Clock.read start = .ok range.start ∧
          Clock.read stop = .ok range.stop := by
  unfold read
  constructor
  · intro hRead
    split at hRead
    · rename_i start stop hSplit
      simp only [Outcome.bind_eq_ok_iff] at hRead
      rcases hRead with ⟨x, hStart, y, hStop, hValue⟩
      cases hValue
      exact ⟨start, stop, hSplit, hStart, hStop⟩
    · cases hRead
  · rintro ⟨start, stop, hSplit, hStart, hStop⟩
    rw [hSplit]
    simp only [hStart, hStop]
    rfl

------------------------------------------------------------
-- Sizes
------------------------------------------------------------

namespace Clock

/- A number of at most so many times 2 ^ 1012. -/
def IsWithin
    (x : Float)
    (n : Nat) : Prop :=
  ∃ v,
    Binary.exactValue? x = some v ∧
      |v| ≤ Binary.magnitude n 1012

namespace IsWithin

variable {x y : Float}
variable {n k : Nat}

/- A small result of a computation is small. -/
theorem of_rounds
    {v : ℚ}
    (hSmall : n < 2 ^ 12)
    (hLe : |v| ≤ Binary.magnitude n 1012)
    (hRounds : Binary.Rounds x v) :
    IsWithin x n := by
  have hPower : (0 : ℚ) < 2 ^ (1012 : ℤ) := by
    positivity
  have hRange : Binary.magnitude n 1012 < Binary.rangeEnd := by
    have hCast : (n : ℚ) < 2 ^ (12 : ℤ) := by
      exact_mod_cast hSmall
    calc Binary.magnitude n 1012
        < 2 ^ (12 : ℤ) * 2 ^ (1012 : ℤ) :=
          mul_lt_mul_of_pos_right hCast hPower
      _ = Binary.rangeEnd := by
          rw [← zpow_add₀ two_ne_zero]
          rfl
  exact Binary.exists_exactValue?_of_rounds hRounds
    (Binary.nearest_magnitude (by omega) (by omega)) hRange
    hLe

/- Sizes are added. -/
theorem add
    (hX : IsWithin x n)
    (hY : IsWithin y k)
    (hSmall : n + k < 2 ^ 12) :
    IsWithin (x + y) (n + k) := by
  rcases hX with ⟨v, hV, hSizeV⟩
  rcases hY with ⟨w, hW, hSizeW⟩
  apply of_rounds hSmall _ (Binary.rounds_add hV hW)
  calc |v + w|
      ≤ |v| + |w| := abs_add_le v w
    _ ≤ Binary.magnitude n 1012 + Binary.magnitude k 1012 :=
        add_le_add hSizeV hSizeW
    _ = Binary.magnitude (n + k) 1012 := by
        rw [Binary.magnitude, Binary.magnitude,
          Binary.magnitude, Nat.cast_add, add_mul]

/- A size is multiplied by a whole number. -/
theorem mul
    (hX : IsWithin x n)
    (hY : Binary.exactValue? y = some (k : ℚ))
    (hSmall : n * k < 2 ^ 12) :
    IsWithin (x * y) (n * k) := by
  rcases hX with ⟨v, hV, hSize⟩
  apply of_rounds hSmall _ (Binary.rounds_mul hV hY)
  calc |v * k|
      = |v| * k := by
        rw [abs_mul, Nat.abs_cast]
    _ ≤ Binary.magnitude n 1012 * k :=
        mul_le_mul_of_nonneg_right hSize (Nat.cast_nonneg k)
    _ = Binary.magnitude (n * k) 1012 := by
        rw [Binary.magnitude, Binary.magnitude, Nat.cast_mul]
        ring

theorem isFinite (hX : IsWithin x n) : x.isFinite = true := by
  rcases hX with ⟨v, hV, _⟩
  exact Binary.exists_exactValue?_iff.mp ⟨v, hV⟩

end IsWithin

/- The seconds of an hour and of a minute. -/
theorem exactValue?_factors :
    Binary.exactValue? 3600.0 = some ((3600 : ℕ) : ℚ) ∧
      Binary.exactValue? 60.0 = some ((60 : ℕ) : ℚ) := by
  have hHour :
      Binary.ofFloat 3600.0 =
        .finite false (3600 * 2 ^ 41) (-41) := by
    decide +kernel
  have hMinute :
      Binary.ofFloat 60.0 =
        .finite false (60 * 2 ^ 47) (-47) := by
    decide +kernel
  rw [Binary.exactValue?, Binary.exactValue?, hHour, hMinute]
  norm_num [Binary.value?, Binary.magnitude]

/- No field of a clock value is beyond 1e304. -/
def isModerate (s : String) : Bool :=
  (Text.split ':' (Text.trim s)).all fun field =>
    match readField s field with
    | .ok x => decide (-1e304 ≤ x ∧ x ≤ 1e304)
    | .error _ => true

/- A number up to 1e304 is not beyond 2 ^ 1012. -/
theorem isWithin_of_le
    {x : Float}
    (hFinite : x.isFinite = true)
    (hLow : -1e304 ≤ x)
    (hHigh : x ≤ 1e304) :
    IsWithin x 1 := by
  have hFields :
      Binary.ofFloat 1e304 =
          .finite false 8209073602596752 957 ∧
        Binary.ofFloat (-1e304) =
          .finite true 8209073602596752 957 := by
    decide +kernel
  have hUpper :
      Binary.exactValue? 1e304 =
        some (Binary.magnitude 8209073602596752 957) := by
    rw [Binary.exactValue?, hFields.1]
    rfl
  have hLower :
      Binary.exactValue? (-1e304) =
        some (-Binary.magnitude 8209073602596752 957) := by
    rw [Binary.exactValue?, hFields.2]
    rfl
  have hLimit :
      Binary.magnitude 8209073602596752 957 ≤
        Binary.magnitude 1 1012 := by
    have hSplit :
        (2 : ℚ) ^ (1012 : ℤ) = 2 ^ (55 : ℤ) * 2 ^ (957 : ℤ) :=
      by
      rw [← zpow_add₀ two_ne_zero]
      rfl
    rw [Binary.magnitude, Binary.magnitude, hSplit,
      Nat.cast_one, one_mul]
    apply mul_le_mul_of_nonneg_right _ (by positivity)
    norm_num
  rcases Binary.exists_exactValue?_iff.mpr hFinite with
    ⟨v, hV⟩
  rw [Binary.le_iff hLower hV] at hLow
  rw [Binary.le_iff hV hUpper] at hHigh
  exact ⟨v, hV, (abs_le.mpr ⟨hLow, hHigh⟩).trans hLimit⟩

/- A field of a moderate clock value is small. -/
theorem isWithin_of_isModerate
    {s field : String}
    {x : Float}
    (hModerate : isModerate s = true)
    (hField : field ∈ Text.split ':' (Text.trim s))
    (hRead : readField s field = .ok x) :
    IsWithin x 1 := by
  have hSmall := List.all_eq_true.mp hModerate field hField
  rw [hRead] at hSmall
  rcases of_decide_eq_true hSmall with ⟨hLow, hHigh⟩
  exact isWithin_of_le (readField_eq_ok_iff.mp hRead).2 hLow
    hHigh

/- A moderate clock value is finite. -/
theorem isFinite_of_isModerate
    {s : String}
    {x : Float}
    (hModerate : isModerate s = true)
    (hRead : read s = .ok x) :
    x.isFinite = true := by
  rcases read_eq_ok_iff.mp hRead with
    ⟨hours, minutes, seconds, h, m, sec, hSplit, hHours,
      hMinutes, hSeconds, rfl⟩
  have hWithin (field : String) (y : Float)
      (hField : field ∈ [hours, minutes, seconds])
      (hRead : readField s field = .ok y) :
      IsWithin y 1 := by
    rw [← hSplit] at hField
    exact isWithin_of_isModerate hModerate hField hRead
  rcases exactValue?_factors with ⟨hHour, hMinute⟩
  have hFirst :=
    (hWithin hours h (by simp) hHours).mul hHour (by decide)
  have hSecond :=
    (hWithin minutes m (by simp) hMinutes).mul hMinute
      (by decide)
  have hThird := hWithin seconds sec (by simp) hSeconds
  exact ((hFirst.add hSecond (by decide)).add hThird
    (by decide)).isFinite

end Clock

------------------------------------------------------------
-- Ranges
------------------------------------------------------------

namespace TimeRange

/- Both clock values of a range are moderate. -/
def isModerate (s : String) : Bool :=
  (Text.splitText separator s).all Clock.isModerate

/- The ends of a moderate range are finite. -/
theorem isFinite_of_isModerate
    {s : String}
    {range : TimeRange}
    (hModerate : isModerate s = true)
    (hRead : read s = .ok range) :
    range.start.isFinite = true ∧
      range.stop.isFinite = true := by
  rcases read_eq_ok_iff.mp hRead with
    ⟨start, stop, hSplit, hStart, hStop⟩
  rw [isModerate, hSplit] at hModerate
  have hBoth := List.all_eq_true.mp hModerate
  exact
    ⟨Clock.isFinite_of_isModerate (hBoth start (by simp))
        hStart,
      Clock.isFinite_of_isModerate (hBoth stop (by simp))
        hStop⟩

/- Between finite ends a range that is not empty lasts. -/
theorem duration_pos_of_not_le
    {range : TimeRange}
    (hStart : range.start.isFinite = true)
    (hStop : range.stop.isFinite = true)
    (hLasts : ¬ range.duration ≤ 0.0) :
    0.0 < range.duration := by
  rcases Binary.exists_exactValue?_iff.mpr hStart with
    ⟨v, hV⟩
  rcases Binary.exists_exactValue?_iff.mpr hStop with
    ⟨w, hW⟩
  exact Binary.pos_of_rounds (Binary.rounds_sub hW hV) hLasts

end TimeRange

end Slideshow

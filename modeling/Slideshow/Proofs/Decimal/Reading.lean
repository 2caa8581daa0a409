import Slideshow.Decimal.Reading
import Slideshow.Proofs.Decimal.Whole
import Slideshow.Proofs.Numeral
import Slideshow.Proofs.Text.Case

/-
  This file proves that a numeral of a whole number is read
  as the double nearest to it, which is the number itself
  below 2 ^ 53.

  Main results include:
    * `Decimal.exactValue?_nearest`
    * `Decimal.read?_of_isOf`
    * `Decimal.exists_read?_of_isOf`
-/

namespace Slideshow

namespace Decimal

/- A whole number below 2 ^ 53 is its own nearest double. -/
theorem exactValue?_nearest
    {n : Nat}
    (hLt : n < 2 ^ 53) :
    Binary.exactValue? (nearest n 0) = some (n : ℚ) := by
  have hDigits : (Nat.toDigits 10 n).length ≤ 16 := by
    rw [Nat.length_toDigits_le_iff (by omega) (by omega)]
    omega
  unfold nearest
  by_cases hZero : n = 0
  · rw [if_pos hZero, hZero, Nat.cast_zero]
    exact Binary.exactValue?_zero
  · rw [if_neg hZero, if_neg (by omega), if_neg (by omega)]
    exact Binary.exactValue?_ofNat hLt

------------------------------------------------------------
-- Numerals
------------------------------------------------------------

theorem isDigit_of_isDigit
    {c : Char}
    (hDigit : c.isDigit = true) :
    isDigit c = true := by
  rw [isDigit, Numeral.digit?_of_isDigit hDigit,
    Option.isSome_some]

section Digits

variable {n : Nat}
variable {digits : List Char}
variable (hDigits : ∀ c ∈ digits, c.isDigit = true)

include hDigits

/- Digits are not a word. -/
theorem readWord?_eq_none : readWord? digits = none := by
  have hLower : digits.map Char.toLower = digits := by
    rw [List.map_congr_left fun c hc =>
      toLower_of_isDigit (hDigits c hc)]
    exact List.map_id digits
  have hNot {word : String}
      (hLetter : ∃ c ∈ word.toList, ¬ c.isDigit = true) :
      String.ofList digits ≠ word := by
    rintro rfl
    rw [String.toList_ofList] at hLetter
    rcases hLetter with ⟨c, hc, hLetter⟩
    exact hLetter (hDigits c hc)
  have hInf : String.ofList digits ≠ "inf" :=
    hNot ⟨'i', by decide, by decide⟩
  have hInfinity : String.ofList digits ≠ "infinity" :=
    hNot ⟨'i', by decide, by decide⟩
  have hNan : String.ofList digits ≠ "nan" :=
    hNot ⟨'n', by decide, by decide⟩
  rw [readWord?, hLower,
    if_neg (not_or.mpr ⟨hInf, hInfinity⟩), if_neg hNan]

/- A run of digits is read as the double nearest to it. -/
theorem readMagnitude?_of_digits
    (hValue : Numeral.value? digits = some n) :
    readMagnitude? digits = some (nearest n 0) := by
  have hAll : ∀ c ∈ digits, isDigit c = true :=
    fun c hc => isDigit_of_isDigit (hDigits c hc)
  have hTake : digits.takeWhile isDigit = digits :=
    List.takeWhile_eq_self_iff.mpr hAll
  have hDrop : digits.dropWhile isDigit = [] :=
    List.dropWhile_eq_nil_iff.mpr hAll
  rw [readMagnitude?]
  simp only [hTake, hDrop, List.append_nil, hValue,
    readExponent?, List.length_nil]
  rfl

end Digits

/- A numeral is read as the double nearest to its number. -/
theorem read?_of_isOf
    {n : Nat}
    {cs : List Char}
    (hNumeral : Numeral.IsOf n cs) :
    read? cs = some (nearest n 0) := by
  rcases hNumeral with
    ⟨digits, hText, hSome, hDigits, hValue⟩
  have hSign : takeSign cs = (false, digits) := by
    rcases hText with rfl | rfl
    · cases cs with
      | nil =>
          rfl
      | cons c cs =>
          have hNot {sign : Char}
              (hNone : ¬ sign.isDigit = true)
              (rest : List Char) :
              c :: cs ≠ sign :: rest := by
            rintro ⟨⟩
            exact hNone (hDigits c List.mem_cons_self)
          unfold takeSign
          split
          · rename_i hCons
            exact absurd hCons (hNot (by decide) _)
          · rename_i hCons
            exact absurd hCons (hNot (by decide) _)
          · rfl
    · rfl
  have hMagnitude :
      readMagnitude? digits = some (nearest n 0) :=
    readMagnitude?_of_digits hDigits
      (Numeral.value?_eq_some_iff.mpr
        ⟨hSome, hDigits, hValue⟩)
  rw [read?, hSign]
  simp only [readWord?_eq_none hDigits, hMagnitude,
    Option.map_some]
  rfl

/- A numeral of a small number is read as that number. -/
theorem exists_read?_of_isOf
    {n : Nat}
    {cs : List Char}
    (hNumeral : Numeral.IsOf n cs)
    (hLt : n < 2 ^ 53) :
    ∃ x,
      read? cs = some x ∧
        Binary.exactValue? x = some (n : ℚ) :=
  ⟨nearest n 0, read?_of_isOf hNumeral,
    exactValue?_nearest hLt⟩

end Decimal

end Slideshow

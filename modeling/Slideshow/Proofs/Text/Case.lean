import Mathlib
import Slideshow.Proofs.Text.Separator

/-
  This file proves that it does not matter whether a text is
  put in lower case before it is trimmed and cut or after,
  as a letter is neither a blank nor a separator.

  The lemmas about the case of a character are reached
  through the whole library alone.

  Main results include:
    * `isBlank_toLower`
    * `Chars.trim_lower`
    * `Chars.split_lower`
    * `Text.trim_lower`
    * `Text.lower_lower`
    * `Text.split_lower`
-/

namespace Slideshow

------------------------------------------------------------
-- Characters
------------------------------------------------------------

/- A letter is not blank. -/
theorem isBlank_of_isAlpha
    {c : Char}
    (hAlpha : c.isAlpha = true) :
    isBlank c = false := by
  have hRange :
      (65 ≤ c.toNat ∧ c.toNat ≤ 90) ∨
        (97 ≤ c.toNat ∧ c.toNat ≤ 122) := by
    simpa [Char.isAlpha, Char.isUpper, Char.isLower,
      UInt32.le_iff_toNat_le] using hAlpha
  apply Chars.isBlank_of_range
  · omega
  · omega

theorem toLower_of_not_isAlpha
    {c : Char}
    (hOther : ¬ c.isAlpha = true) :
    c.toLower = c := by
  apply Char.toLower_eq_of_not_isUpper
  intro hUpper
  rw [Char.isAlpha, hUpper, Bool.true_or] at hOther
  exact hOther rfl

theorem toLower_of_isDigit
    {c : Char}
    (hDigit : c.isDigit = true) :
    c.toLower = c := by
  apply Char.toLower_eq_of_not_isUpper
  simp only [Char.isDigit, Char.isUpper, Bool.and_eq_true,
    decide_eq_true_eq] at hDigit ⊢
  rintro ⟨hLow, -⟩
  exact absurd (UInt32.le_trans hLow hDigit.2) (by decide)

/- Blanks stay blanks, and nothing else becomes one. -/
theorem isBlank_toLower (c : Char) :
    isBlank c.toLower = isBlank c := by
  by_cases hAlpha : c.isAlpha = true
  · have hLower : c.toLower.isAlpha = true := by
      rwa [Char.isAlpha_toLower_eq_isAlpha]
    rw [isBlank_of_isAlpha hAlpha,
      isBlank_of_isAlpha hLower]
  · rw [toLower_of_not_isAlpha hAlpha]

/-
  A character becomes one that is no letter only if it is
  that character.
-/
theorem toLower_eq_iff
    {c sep : Char}
    (hSep : ¬ sep.isAlpha = true) :
    c.toLower = sep ↔ c = sep := by
  constructor
  · rintro rfl
    rw [Char.isAlpha_toLower_eq_isAlpha] at hSep
    exact (toLower_of_not_isAlpha hSep).symm
  · rintro rfl
    exact toLower_of_not_isAlpha hSep

------------------------------------------------------------
-- Texts
------------------------------------------------------------

namespace Chars

/- Lower case and trimming do not interfere. -/
theorem trim_lower (cs : List Char) :
    trim (lower cs) = lower (trim cs) := by
  have hBlank : isBlank ∘ Char.toLower = isBlank :=
    funext isBlank_toLower
  rw [trim, trimEnd, lower, List.dropWhile_map, hBlank,
    ← List.map_reverse, List.dropWhile_map, hBlank,
    ← List.map_reverse]
  rfl

/- A text in lower case is left alone. -/
theorem lower_lower (cs : List Char) :
    lower (lower cs) = lower cs := by
  rw [lower, lower, List.map_map]
  exact List.map_congr_left fun c _ =>
    Char.toLower_toLower_eq_toLower c

/- Lower case and cutting do not interfere. -/
theorem split_lower
    {sep : Char}
    (cs : List Char)
    (hSep : ¬ sep.isAlpha = true) :
    split sep (lower cs) = (split sep cs).map lower := by
  induction cs with
  | nil =>
      rfl
  | cons c cs ih =>
      simp only [split] at ih ⊢
      rw [lower, List.map_cons,
        List.splitOnP_cons_eq_if_modifyHead, ← lower, ih,
        List.splitOnP_cons_eq_if_modifyHead]
      by_cases hEq : c = sep
      · have hLower := (toLower_eq_iff hSep).mpr hEq
        rw [if_pos (beq_iff_eq.mpr hLower),
          if_pos (beq_iff_eq.mpr hEq)]
        rfl
      · have hLower := mt (toLower_eq_iff hSep).mp hEq
        rw [if_neg (by simpa using hLower),
          if_neg (by simpa using hEq)]
        cases List.splitOnP (· == sep) cs with
        | nil =>
            rfl
        | cons piece pieces =>
            rfl

end Chars

namespace Text

/- Lower case and trimming do not interfere. -/
theorem trim_lower (s : String) :
    trim (lower s) = lower (trim s) := by
  rw [trim, lower, String.toList_ofList, Chars.trim_lower,
    lower, trim, String.toList_ofList]

/- A text in lower case is left alone. -/
theorem lower_lower (s : String) :
    lower (lower s) = lower s := by
  rw [lower, lower, String.toList_ofList,
    Chars.lower_lower]

/- Lower case and cutting do not interfere. -/
theorem split_lower
    {sep : Char}
    (s : String)
    (hSep : ¬ sep.isAlpha = true) :
    split sep (lower s) = (split sep s).map lower := by
  have hLower :
      lower ∘ String.ofList =
        String.ofList ∘ Chars.lower := by
    funext cs
    rw [Function.comp_apply, lower, String.toList_ofList,
      Function.comp_apply]
  rw [split, split, List.map_map, hLower, ← List.map_map,
    lower, String.toList_ofList, Chars.split_lower _ hSep]

end Text

end Slideshow

import Slideshow.Proofs.Text.Blank
import Slideshow.Text.Basic

/-
  This file proves how texts are cut at separators, that the
  pieces of joined texts are those of each, and that a text
  is not trimmed if it has no blanks or has been trimmed.

  Main results include:
    * `Chars.splitOnce_append_cons`
    * `Chars.splitOnce_eq_none`
    * `Chars.split_append_cons`
    * `Chars.length_split`
    * `Chars.map_trim_split_between`
    * `Chars.trim_eq_self`
    * `Text.split_append`
    * `Text.split_eq_singleton_iff`
    * `Text.split_join`
    * `Text.split_eq_pair_iff`
    * `Text.trim_eq_self`
    * `Text.trim_between`
    * `Text.map_trim_split_trim`
-/

namespace Slideshow

namespace Chars

variable {sep : Char}

/- A text is cut at its first separator. -/
theorem splitOnce_append_cons
    {before : List Char}
    (hBefore : sep ∉ before)
    (after : List Char) :
    splitOnce sep (before ++ sep :: after) =
      some (before, after) := by
  have hPass : ∀ c ∈ before, (c != sep) = true := by
    intro c hc
    exact bne_iff_ne.mpr (ne_of_mem_of_not_mem hc hBefore)
  rw [splitOnce, List.dropWhile_append_of_pos hPass,
    List.takeWhile_append_of_pos hPass]
  simp

/- A text without separators is not cut. -/
theorem splitOnce_eq_none
    {cs : List Char}
    (hNone : sep ∉ cs) :
    splitOnce sep cs = none := by
  have hPass : cs.dropWhile (· != sep) = [] := by
    rw [List.dropWhile_eq_nil_iff]
    intro c hc
    exact bne_iff_ne.mpr (ne_of_mem_of_not_mem hc hNone)
  rw [splitOnce, hPass]

theorem split_eq_singleton
    {cs : List Char}
    (hNone : sep ∉ cs) :
    split sep cs = [cs] := by
  apply List.splitOnP_eq_singleton
  intro c hc
  exact beq_false_of_ne (ne_of_mem_of_not_mem hc hNone)

/- The pieces of texts with a separator between them. -/
theorem split_append
    (before after : List Char) :
    split sep (before ++ sep :: after) =
      split sep before ++ split sep after :=
  List.splitOnP_append_cons before after
    (beq_self_eq_true sep)

/- A separator ends the first piece. -/
theorem split_append_cons
    {before : List Char}
    (hBefore : sep ∉ before)
    (after : List Char) :
    split sep (before ++ sep :: after) =
      before :: split sep after := by
  rw [split_append, split_eq_singleton hBefore,
    List.singleton_append]

/- There is one piece more than there are separators. -/
theorem length_split
    (sep : Char)
    (cs : List Char) :
    (split sep cs).length = cs.count sep + 1 := by
  induction cs with
  | nil =>
      rfl
  | cons c cs ih =>
      rw [split] at ih ⊢
      rw [List.splitOnP_cons_eq_if_modifyHead,
        List.count_cons]
      by_cases hSep : (c == sep) = true
      · rw [if_pos hSep, if_pos hSep, List.length_cons, ih]
      · rw [if_neg hSep, if_neg hSep, List.length_modifyHead,
          ih, Nat.add_zero]

/- A character above the space, in ASCII, is not blank. -/
theorem isBlank_of_range
    {c : Char}
    (hLow : 32 < c.toNat)
    (hHigh : c.toNat < 127) :
    isBlank c = false := by
  simp only [isBlank, blankRanges, List.any_eq_false,
    List.forall_mem_cons, List.not_mem_nil]
  simp
  omega

theorem isBlank_of_isDigit
    {c : Char}
    (hDigit : c.isDigit = true) :
    isBlank c = false := by
  have hRange : 48 ≤ c.toNat ∧ c.toNat ≤ 57 := by
    simpa [Char.isDigit, UInt32.le_iff_toNat_le]
      using hDigit
  apply isBlank_of_range
  · omega
  · omega

/- A text without blanks is left alone. -/
theorem trim_eq_self
    {cs : List Char}
    (hVisible : ∀ c ∈ cs, isBlank c = false) :
    trim cs = cs := by
  rcases exists_trim cs with
    ⟨before, after, hText, hBefore, hAfter⟩
  have hNone {blanks : List Char}
      (hBlank : AreBlank blanks)
      (hSubset : blanks ⊆ cs) :
      blanks = [] := by
    rw [List.eq_nil_iff_forall_not_mem]
    intro c hc
    exact hBlank.not_mem (hVisible c (hSubset hc)) hc
  have hFirst : before = [] := by
    apply hNone hBefore
    rw [hText]
    exact List.subset_append_left _ _
  have hLast : after = [] := by
    apply hNone hAfter
    rw [hText, ← List.append_assoc]
    exact List.subset_append_right _ _
  rw [hFirst, hLast, List.nil_append, List.append_nil]
    at hText
  exact hText.symm

/-
  Blanks around a text are blanks around its first and its
  last piece.
-/
theorem map_trim_split_between
    {before after : List Char}
    (cs : List Char)
    (hVisible : isBlank sep = false)
    (hBefore : AreBlank before)
    (hAfter : AreBlank after) :
    (split sep (before ++ (cs ++ after))).map trim =
      (split sep cs).map trim := by
  induction hLength : cs.length using
    Nat.strong_induction_on generalizing before cs with
  | _ n ih =>
      by_cases hMem : sep ∈ cs
      · rcases List.eq_append_cons_of_mem hMem with
          ⟨first, rest, rfl, hFirst⟩
        have hShorter : rest.length < n := by
          rw [← hLength, List.length_append,
            List.length_cons]
          omega
        have hRest :
            (split sep (rest ++ after)).map trim =
              (split sep rest).map trim :=
          ih rest.length hShorter rest
            (List.forall_mem_nil _) rfl
        have hOpened : sep ∉ before ++ first := by
          rw [List.mem_append, not_or]
          exact ⟨hBefore.not_mem hVisible, hFirst⟩
        have hText :
            before ++ ((first ++ sep :: rest) ++ after) =
              (before ++ first) ++ sep :: (rest ++ after) := by
          simp
        have hTrim :=
          trim_between first hBefore (List.forall_mem_nil _)
        rw [List.append_nil] at hTrim
        rw [hText, split_append_cons hOpened,
          split_append_cons hFirst, List.map_cons,
          List.map_cons, hTrim]
        exact congrArg _ hRest
      · have hWhole : sep ∉ before ++ (cs ++ after) := by
          rwa [mem_between_iff cs hVisible hBefore hAfter]
        rw [split_eq_singleton hWhole,
          split_eq_singleton hMem, List.map_singleton,
          List.map_singleton,
          trim_between cs hBefore hAfter]

end Chars

namespace Text

/- The pieces of texts with a separator between them. -/
theorem split_append
    (sep : Char)
    (s t : String) :
    split sep (s ++ String.singleton sep ++ t) =
      split sep s ++ split sep t := by
  rw [split, split, split, ← List.map_append,
    ← Chars.split_append, String.toList_append,
    String.toList_append, String.toList_singleton,
    List.append_assoc, List.singleton_append]

/-
  A text without separators is one piece.  Any other text is
  cut at the first one, and so on behind it.
-/
theorem split_cases
    (sep : Char)
    (s : String) :
    (sep ∉ s.toList ∧ splitOnce sep s = none ∧
      split sep s = [s]) ∨
      ∃ before after,
        s = before ++ String.singleton sep ++ after ∧
          sep ∉ before.toList ∧
          splitOnce sep s = some (before, after) ∧
          split sep s = before :: split sep after := by
  by_cases hMem : sep ∈ s.toList
  · right
    rcases List.eq_append_cons_of_mem hMem with
      ⟨before, after, hText, hBefore⟩
    refine ⟨String.ofList before, String.ofList after, ?_,
      ?_, ?_, ?_⟩
    · rw [← String.toList_inj, hText]
      simp
    · rwa [String.toList_ofList]
    · rw [splitOnce, hText,
        Chars.splitOnce_append_cons hBefore,
        Option.map_some]
    · rw [split, hText, Chars.split_append_cons hBefore,
        List.map_cons, split, String.toList_ofList]
  · left
    refine ⟨hMem, ?_, ?_⟩
    · rw [splitOnce, Chars.splitOnce_eq_none hMem,
        Option.map_none]
    · rw [split, Chars.split_eq_singleton hMem,
        List.map_singleton, String.ofList_toList]

theorem split_ne_nil
    (sep : Char)
    (s : String) :
    split sep s ≠ [] := by
  rcases split_cases sep s with
    ⟨-, -, hPieces⟩ | ⟨before, after, -, -, -, hPieces⟩
  · rw [hPieces]
    exact List.cons_ne_nil _ _
  · rw [hPieces]
    exact List.cons_ne_nil _ _

/- A text is one piece exactly if it has no separators. -/
theorem split_eq_singleton_iff
    {sep : Char}
    {s piece : String} :
    split sep s = [piece] ↔
      sep ∉ s.toList ∧ piece = s := by
  rcases split_cases sep s with
    ⟨hNone, -, hPieces⟩ |
    ⟨before, after, hText, -, -, hPieces⟩
  · rw [hPieces, List.singleton_inj, eq_comm]
    exact (and_iff_right hNone).symm
  · rw [hPieces]
    constructor
    · intro hEq
      exact absurd (List.cons.inj hEq).2
        (split_ne_nil sep after)
    · rintro ⟨hNone, -⟩
      rw [hText] at hNone
      simp at hNone

/- Texts that were joined with a separator are cut again. -/
theorem split_join
    {sep : Char}
    {texts : List String}
    (hTexts : ∀ text ∈ texts, sep ∉ text.toList)
    (hSome : texts ≠ []) :
    split sep (join (String.singleton sep) texts) =
      texts := by
  induction texts with
  | nil =>
      exact absurd rfl hSome
  | cons first rest ih =>
      rw [List.forall_mem_cons] at hTexts
      have hFirst : split sep first = [first] :=
        split_eq_singleton_iff.mpr ⟨hTexts.1, rfl⟩
      cases rest with
      | nil =>
          rw [join, String.intercalate_singleton, hFirst]
      | cons second rest =>
          have hRest := ih hTexts.2 (List.cons_ne_nil _ _)
          rw [join] at hRest ⊢
          rw [String.intercalate_cons_cons, split_append,
            hFirst, hRest, List.singleton_append]

/- A text is two pieces exactly if it has one separator. -/
theorem split_eq_pair_iff
    {sep : Char}
    {s first second : String} :
    split sep s = [first, second] ↔
      splitOnce sep s = some (first, second) ∧
        sep ∉ second.toList := by
  rcases split_cases sep s with
    ⟨-, hOnce, hPieces⟩ |
    ⟨before, after, -, -, hOnce, hPieces⟩
  · rw [hPieces, hOnce]
    simp
  · rw [hPieces, hOnce, List.cons.injEq,
      split_eq_singleton_iff, Option.some.injEq,
      Prod.mk.injEq]
    constructor
    · rintro ⟨rfl, hNone, rfl⟩
      exact ⟨⟨rfl, rfl⟩, hNone⟩
    · rintro ⟨⟨rfl, rfl⟩, hNone⟩
      exact ⟨rfl, hNone, rfl⟩

/- A text without blanks is left alone. -/
theorem trim_eq_self
    {s : String}
    (hVisible : ∀ c ∈ s.toList, isBlank c = false) :
    trim s = s := by
  rw [trim, Chars.trim_eq_self hVisible,
    String.ofList_toList]

/- Blanks around a text are dropped with those of its own. -/
theorem trim_between
    {before after : String}
    (s : String)
    (hBefore : Chars.AreBlank before.toList)
    (hAfter : Chars.AreBlank after.toList) :
    trim (before ++ s ++ after) = trim s := by
  rw [trim, String.toList_append, String.toList_append,
    List.append_assoc, Chars.trim_between _ hBefore hAfter,
    trim]

theorem trim_trim (s : String) :
    trim (trim s) = trim s := by
  rw [trim, trim, String.toList_ofList, Chars.trim_trim]

/- There is one piece more than there are separators. -/
theorem length_split
    (sep : Char)
    (s : String) :
    (split sep s).length = s.toList.count sep + 1 := by
  rw [split, List.length_map, Chars.length_split]

/-
  It does not matter for trimmed pieces that the text has
  been trimmed before.
-/
theorem map_trim_split_trim
    (sep : Char)
    (s : String)
    (hVisible : isBlank sep = false) :
    (split sep (trim s)).map trim =
      (split sep s).map trim := by
  have hTrim :
      trim ∘ String.ofList = String.ofList ∘ Chars.trim := by
    funext cs
    rw [Function.comp_apply, trim, String.toList_ofList,
      Function.comp_apply]
  rcases Chars.exists_trim s.toList with
    ⟨before, after, hText, hBefore, hAfter⟩
  have hPieces :=
    Chars.map_trim_split_between (Chars.trim s.toList)
      hVisible hBefore hAfter
  rw [← hText] at hPieces
  rw [split, split, List.map_map, List.map_map, hTrim,
    ← List.map_map, ← List.map_map, trim,
    String.toList_ofList, hPieces]

/- Trimming drops no characters but blanks. -/
theorem mem_trim_iff
    {c : Char}
    (s : String)
    (hVisible : isBlank c = false) :
    c ∈ (trim s).toList ↔ c ∈ s.toList := by
  rcases Chars.exists_trim s.toList with
    ⟨before, after, hText, hBefore, hAfter⟩
  have hMem :=
    Chars.mem_between_iff (Chars.trim s.toList) hVisible
      hBefore hAfter
  rw [← hText] at hMem
  rw [trim, String.toList_ofList, hMem]

end Text

end Slideshow

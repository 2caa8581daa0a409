import Slideshow.Proofs.Text.Replace

/-
  This file proves how a text is cut at the occurrences of
  another text, found from the left and never overlapping.

  The occurrences are counted by a relation of their own
  (`Chars.Occurs`).  There is one piece more than there are
  occurrences, none of them has an occurrence within, and
  joined again they are the text.

  Key definitions include:
    * `Chars.Occurs`

  Main results include:
    * `Chars.occurs_iff`
    * `Chars.intercalate_splitText`
    * `Chars.not_isInfix_of_mem_splitText`
    * `Chars.splitText_eq_singleton`
    * `Chars.splitText_append_of_not_mem`
    * `Chars.count_eq_of_splitText`
-/

namespace Slideshow

namespace Chars

variable {sep cs : List Char}

------------------------------------------------------------
-- Counting
------------------------------------------------------------

/-
  A text has so many occurrences of `sep`, counted from the
  left, each behind the one before.
-/
inductive Occurs (sep : List Char) :
    Nat → List Char → Prop
| nil : Occurs sep 0 []
| found
    {n : Nat}
    {cs : List Char}
    (hRest : Occurs sep n cs) :
    Occurs sep (n + 1) (sep ++ cs)
| passed
    {n : Nat}
    {c : Char}
    {cs : List Char}
    (hNot : ¬ sep <+: c :: cs)
    (hRest : Occurs sep n cs) :
    Occurs sep n (c :: cs)

theorem length_consHead
    {pieces : List (List Char)}
    (c : Char)
    (hSome : pieces ≠ []) :
    (consHead c pieces).length = pieces.length := by
  cases pieces with
  | nil =>
      exact absurd rfl hSome
  | cons piece pieces =>
      rfl

/- Every text has a number of occurrences. -/
theorem exists_occurs
    (hSep : sep ≠ [])
    (cs : List Char) :
    ∃ n, Occurs sep n cs := by
  have hReplaced := isReplaced_replaceText [] hSep cs
  generalize replaceText sep [] cs = ds at hReplaced
  induction hReplaced with
  | nil =>
      exact ⟨0, .nil⟩
  | found _ ih =>
      rcases ih with ⟨n, hRest⟩
      exact ⟨n + 1, .found hRest⟩
  | kept hNot _ ih =>
      rcases ih with ⟨n, hRest⟩
      exact ⟨n, .passed hNot hRest⟩

/- There is one piece more than there are occurrences. -/
theorem Occurs.length_splitText
    {n : Nat}
    (hSep : sep ≠ [])
    (hOccurs : Occurs sep n cs) :
    (splitText sep cs).length = n + 1 := by
  induction hOccurs with
  | nil =>
      rfl
  | found _ ih =>
      rw [splitText_append hSep, List.length_cons, ih]
  | passed hNot _ ih =>
      rw [splitText_cons, if_neg hNot,
        length_consHead _ (splitText_ne_nil _ _), ih]

/- Occurrences are counted by the pieces. -/
theorem occurs_iff
    {n : Nat}
    (hSep : sep ≠ []) :
    Occurs sep n cs ↔ (splitText sep cs).length = n + 1 := by
  constructor
  · exact fun hOccurs => hOccurs.length_splitText hSep
  · intro hLength
    rcases exists_occurs hSep cs with ⟨m, hOccurs⟩
    have hSame := hOccurs.length_splitText hSep
    rw [hLength, Nat.succ_inj] at hSame
    rwa [hSame]

------------------------------------------------------------
-- Pieces
------------------------------------------------------------

/- The pieces, joined again, are the text. -/
theorem intercalate_splitText
    (hSep : sep ≠ [])
    (cs : List Char) :
    sep.intercalate (splitText sep cs) = cs := by
  rcases exists_occurs hSep cs with ⟨n, hOccurs⟩
  rw [← replaceText, replaceText_eq_iff hSep]
  induction hOccurs with
  | nil =>
      exact .nil
  | found _ ih =>
      exact .found ih
  | passed hNot _ ih =>
      exact .kept hNot ih

/- The first piece starts the text. -/
theorem isPrefix_of_splitText
    {piece : List Char}
    {pieces : List (List Char)}
    (hSep : sep ≠ [])
    (hPieces : splitText sep cs = piece :: pieces) :
    piece <+: cs := by
  have hJoined := intercalate_splitText hSep cs
  rw [hPieces] at hJoined
  rw [← hJoined]
  cases pieces with
  | nil =>
      rw [List.intercalate_singleton]
  | cons next pieces =>
      rw [List.intercalate_cons_cons, List.append_assoc]
      exact List.prefix_append _ _

/- No piece has an occurrence within. -/
theorem not_isInfix_of_mem_splitText
    {piece : List Char}
    (hSep : sep ≠ [])
    (hPiece : piece ∈ splitText sep cs) :
    ¬ sep <:+: piece := by
  rcases exists_occurs hSep cs with ⟨n, hOccurs⟩
  induction hOccurs generalizing piece with
  | nil =>
      rw [List.mem_singleton.mp hPiece, List.infix_nil]
      exact hSep
  | found _ ih =>
      rw [splitText_append hSep] at hPiece
      rcases List.mem_cons.mp hPiece with rfl | hRest
      · rwa [List.infix_nil]
      · exact ih hRest
  | @passed n c cs hNot _ ih =>
      rw [splitText_cons, if_neg hNot] at hPiece
      cases hPieces : splitText sep cs with
      | nil =>
          exact absurd hPieces (splitText_ne_nil _ _)
      | cons first pieces =>
          rw [hPieces] at hPiece ih
          rcases List.mem_cons.mp hPiece with rfl | hRest
          · rw [List.infix_cons_iff, not_or]
            have hPrefix :=
              isPrefix_of_splitText hSep hPieces
            have hLonger : c :: first <+: c :: cs := by
              rwa [List.cons_prefix_cons,
                and_iff_right rfl]
            exact ⟨fun hStarts =>
                hNot (hStarts.trans hLonger),
              ih List.mem_cons_self⟩
          · exact ih (List.mem_cons_of_mem first hRest)

/- A text without occurrences is one piece. -/
theorem splitText_eq_singleton
    (hNone : ¬ sep <:+: cs) :
    splitText sep cs = [cs] := by
  induction cs with
  | nil =>
      rfl
  | cons c cs ih =>
      rw [List.infix_cons_iff, not_or] at hNone
      rw [splitText_cons, if_neg hNone.1, ih hNone.2]
      rfl

/-
  A text that lacks a character of the separator is cut off
  where the separator follows.  No occurrence starts before,
  since its first such character would be in the text or in
  front of the first one of the separator.
-/
theorem splitText_append_of_not_mem
    {w v before : List Char}
    {c : Char}
    (hFirst : c ∉ w)
    (hBefore : c ∉ before)
    (after : List Char) :
    splitText (w ++ c :: v)
        (before ++ ((w ++ c :: v) ++ after)) =
      before :: splitText (w ++ c :: v) after := by
  induction before with
  | nil =>
      exact splitText_append (by simp) after
  | cons d before ih =>
      rw [List.mem_cons, not_or] at hBefore
      have hNot :
          ¬ w ++ c :: v <+:
            d :: (before ++ ((w ++ c :: v) ++ after)) := by
        intro hStarts
        have hFirstPart :
            w ++ [c] <+:
              d :: (before ++ ((w ++ c :: v) ++ after)) := by
          refine List.IsPrefix.trans ?_ hStarts
          simp
        have hShort :
            w ++ [c] <+: (d :: before) ++ w := by
          apply List.prefix_of_prefix_length_le hFirstPart
          · simp
          · simp
        have hMem : c ∈ (d :: before) ++ w :=
          hShort.subset (by simp)
        rw [List.mem_append, List.mem_cons] at hMem
        rcases hMem with (hEq | hMem) | hMem
        · exact hBefore.1 hEq
        · exact hBefore.2 hMem
        · exact hFirst hMem
      rw [List.cons_append, splitText_cons, if_neg hNot,
        ih hBefore.2]
      rfl

------------------------------------------------------------
-- Sides
------------------------------------------------------------

/-
  Where two cuts of a text overlap, what is between them is
  a part of the separator.
-/
theorem isPrefix_of_append_eq
    {m after rest : List Char}
    (hNot : ¬ sep <+: m)
    (hEq : sep ++ rest = m ++ after) :
    m <+: sep := by
  have hSep : sep <+: m ++ after := by
    rw [← hEq]
    exact List.prefix_append sep rest
  rcases List.prefix_or_prefix_of_prefix hSep
    (List.prefix_append m after) with hLong | hShort
  · exact absurd hLong hNot
  · exact hShort

/-
  If a text has one occurrence, then it does not matter at
  which one it is cut for a character that the separator
  lacks, as cuts can only overlap.
-/
theorem count_eq_of_splitText
    {first second start stop : List Char}
    {c : Char}
    (hSep : sep ≠ [])
    (hNot : c ∉ sep)
    (hPieces :
      splitText sep (start ++ (sep ++ stop)) =
        [first, second]) :
    start.count c = first.count c ∧
      stop.count c = second.count c := by
  have hNone (piece : List Char)
      (hMem : piece ∈ [first, second]) :
      ¬ sep <:+: piece := by
    rw [← hPieces] at hMem
    exact not_isInfix_of_mem_splitText hSep hMem
  have hSepCount : sep.count c = 0 :=
    List.count_eq_zero.mpr hNot
  have hText :
      first ++ (sep ++ second) = start ++ (sep ++ stop) := by
    have hJoined :=
      intercalate_splitText hSep (start ++ (sep ++ stop))
    rwa [hPieces, List.intercalate_cons_cons,
      List.intercalate_singleton, List.append_assoc]
      at hJoined
  have hCounts :
      first.count c + second.count c =
        start.count c + stop.count c := by
    have hBoth := congrArg (List.count c) hText
    simp only [List.count_append, hSepCount,
      Nat.zero_add] at hBoth
    exact hBoth
  have hBetween {m : List Char}
      (hShort : m <+: sep) :
      m.count c = 0 :=
    List.count_eq_zero.mpr fun hMem =>
      hNot (hShort.subset hMem)
  rcases List.append_eq_append_iff.mp hText with
    ⟨m, rfl, hRest⟩ | ⟨m, rfl, hRest⟩
  · have hInner : ¬ sep <+: m := by
      rintro ⟨rest, rfl⟩
      rw [List.append_assoc, List.append_cancel_left_eq]
        at hRest
      apply hNone second (by simp)
      exact ⟨rest, stop, by rw [hRest, List.append_assoc]⟩
    rw [List.count_append,
      hBetween (isPrefix_of_append_eq hInner hRest)]
      at hCounts ⊢
    omega
  · have hInner : ¬ sep <+: m := fun hPrefix =>
      hNone _ List.mem_cons_self
        (hPrefix.isInfix.trans
          (List.suffix_append start m).isInfix)
    rw [List.count_append,
      hBetween (isPrefix_of_append_eq hInner hRest)]
      at hCounts ⊢
    omega

end Chars

theorem Text.map_toList_splitText (sep s : String) :
    (splitText sep s).map String.toList =
      Chars.splitText sep.toList s.toList := by
  rw [splitText, List.map_map]
  simp [Function.comp_def]

end Slideshow

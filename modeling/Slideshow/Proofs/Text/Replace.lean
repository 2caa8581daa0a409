import Mathlib.Data.List.Infix
import Slideshow.Text.Basic

/-
  This file proves what becomes of a text when every
  occurrence of another text in it is replaced.

  Replacing is a relation between two texts
  (`Chars.IsReplaced`) that has one step for each occurrence
  and one for each character that is kept.  What is put in
  for an occurrence can only lead to a new one if it is a
  part of one, so a character that is in no occurrence keeps
  what is in front of it apart from what is behind it.

  Key definitions include:
    * `Chars.IsReplaced`

  Main results include:
    * `Chars.replaceText_eq_iff`
    * `Chars.replaceText_eq_self`
    * `Chars.IsReplaced.append_cons`
    * `Chars.IsReplaced.isInfix`
    * `Chars.IsReplaced.not_isInfix`
-/

namespace Slideshow

namespace Chars

variable {old new cs ds : List Char}

------------------------------------------------------------
-- Steps
------------------------------------------------------------

/-
  A text in which each occurrence of `old`, found from the
  left, has become `new`, and all other characters have been
  kept in order.
-/
inductive IsReplaced
    (old new : List Char) :
    List Char → List Char → Prop
| nil : IsReplaced old new [] []
| found
    {cs ds : List Char}
    (hRest : IsReplaced old new cs ds) :
    IsReplaced old new (old ++ cs) (new ++ ds)
| kept
    {c : Char}
    {cs ds : List Char}
    (hNot : ¬ old <+: c :: cs)
    (hRest : IsReplaced old new cs ds) :
    IsReplaced old new (c :: cs) (c :: ds)

/- What is passed over could as well be dropped before. -/
theorem splitTextFrom_eq_drop
    (sep : List Char)
    (skip : Nat)
    (cs : List Char) :
    splitTextFrom sep skip cs =
      splitText sep (cs.drop skip) := by
  induction skip generalizing cs with
  | zero =>
      rfl
  | succ skip ih =>
      cases cs with
      | nil =>
          rfl
      | cons c cs =>
          exact ih cs

/- The first character starts an occurrence or does not. -/
theorem splitText_cons
    (sep : List Char)
    (c : Char)
    (cs : List Char) :
    splitText sep (c :: cs) =
      if sep <+: c :: cs then
        [] :: splitText sep (cs.drop (sep.length - 1))
      else consHead c (splitText sep cs) := by
  rw [← splitTextFrom_eq_drop]
  simp only [← List.isPrefixOf_iff_prefix]
  rfl

/- There is always a piece. -/
theorem splitText_ne_nil (sep cs : List Char) :
    splitText sep cs ≠ [] := by
  cases cs with
  | nil =>
      exact List.cons_ne_nil _ _
  | cons c cs =>
      rw [splitText_cons]
      by_cases hFound : sep <+: c :: cs
      · rw [if_pos hFound]
        exact List.cons_ne_nil _ _
      · rw [if_neg hFound]
        cases splitText sep cs with
        | nil =>
            exact List.cons_ne_nil _ _
        | cons piece pieces =>
            exact List.cons_ne_nil _ _

/- An occurrence at the start is in front of the pieces. -/
theorem splitText_append
    {sep : List Char}
    (hSep : sep ≠ [])
    (cs : List Char) :
    splitText sep (sep ++ cs) = [] :: splitText sep cs := by
  cases sep with
  | nil =>
      exact absurd rfl hSep
  | cons d sep =>
      have hFound : d :: sep <+: d :: (sep ++ cs) :=
        List.prefix_append (d :: sep) cs
      rw [List.cons_append, splitText_cons, if_pos hFound]
      simp

/- An occurrence at the start is replaced. -/
theorem replaceText_append
    (new cs : List Char)
    (hOld : old ≠ []) :
    replaceText old new (old ++ cs) =
      new ++ replaceText old new cs := by
  rw [replaceText, splitText_append hOld, replaceText]
  cases hRest : splitText old cs with
  | nil =>
      exact absurd hRest (splitText_ne_nil _ _)
  | cons piece pieces =>
      simp [List.intercalate]

/- A character in front of which none starts is kept. -/
theorem replaceText_cons
    {c : Char}
    (new : List Char)
    (hNot : ¬ old <+: c :: cs) :
    replaceText old new (c :: cs) =
      c :: replaceText old new cs := by
  have hPieces :
      splitText old (c :: cs) =
        consHead c (splitText old cs) := by
    rw [splitText_cons, if_neg hNot]
  rw [replaceText, hPieces, replaceText]
  rcases splitText old cs with _ | ⟨piece, _ | ⟨_, _⟩⟩
  · simp [consHead, List.intercalate]
  · simp [consHead, List.intercalate]
  · simp [consHead, List.intercalate]

/- Replacing goes by these steps. -/
theorem isReplaced_replaceText
    (new : List Char)
    (hOld : old ≠ [])
    (cs : List Char) :
    IsReplaced old new cs (replaceText old new cs) := by
  induction hLength : cs.length using
    Nat.strong_induction_on generalizing cs with
  | _ n ih =>
      by_cases hFound : old <+: cs
      · rcases hFound with ⟨rest, rfl⟩
        rw [replaceText_append new rest hOld]
        refine .found (ih rest.length ?_ rest rfl)
        have hPos := List.length_pos_of_ne_nil hOld
        rw [← hLength, List.length_append]
        omega
      · cases cs with
        | nil =>
            exact .nil
        | cons c cs =>
            rw [replaceText_cons new hFound]
            refine .kept hFound (ih cs.length ?_ cs rfl)
            rw [← hLength, List.length_cons]
            omega

/- There is one way to go by them. -/
theorem replaceText_eq_iff
    (hOld : old ≠ []) :
    replaceText old new cs = ds ↔
      IsReplaced old new cs ds := by
  constructor
  · rintro rfl
    exact isReplaced_replaceText new hOld cs
  · intro hReplaced
    induction hReplaced with
    | nil =>
        rfl
    | found _ ih =>
        rw [replaceText_append new _ hOld, ih]
    | kept hNot _ ih =>
        rw [replaceText_cons new hNot, ih]

/- A text without occurrences is left alone. -/
theorem replaceText_eq_self
    (new : List Char)
    (hNone : ¬ old <:+: cs) :
    replaceText old new cs = cs := by
  induction cs with
  | nil =>
      rfl
  | cons c cs ih =>
      rw [List.infix_cons_iff, not_or] at hNone
      rw [replaceText_cons new hNone.1, ih hNone.2]

------------------------------------------------------------
-- Joined Texts
------------------------------------------------------------

/-
  What starts a text goes no further than a character that
  it does not have.
-/
theorem isPrefix_of_append_cons
    {w before after : List Char}
    {c : Char}
    (hNot : c ∉ w)
    (hPrefix : w <+: before ++ c :: after) :
    w <+: before := by
  rcases List.prefix_or_prefix_of_prefix hPrefix
    (List.prefix_append before (c :: after)) with
    hShort | ⟨more, rfl⟩
  · exact hShort
  · rw [List.prefix_append_right_inj] at hPrefix
    cases more with
    | nil =>
        simp
    | cons d more =>
        rw [List.cons_prefix_cons] at hPrefix
        rw [hPrefix.1] at hNot
        simp at hNot

theorem eq_nil_of_isPrefix_cons
    {w after : List Char}
    {c : Char}
    (hNot : c ∉ w)
    (hPrefix : w <+: c :: after) :
    w = [] := by
  have hNone : w <+: [] :=
    isPrefix_of_append_cons hNot hPrefix
  exact List.prefix_nil.mp hNone

/-
  A character that is in no occurrence parts what is done in
  front of it from what is done behind it.
-/
theorem IsReplaced.append_cons
    {c : Char}
    {es fs : List Char}
    (hOld : old ≠ [])
    (hNot : c ∉ old)
    (hFirst : IsReplaced old new cs ds)
    (hSecond : IsReplaced old new es fs) :
    IsReplaced old new (cs ++ c :: es) (ds ++ c :: fs) := by
  have hApart {before : List Char}
      (hBefore : ¬ old <+: before) :
      ¬ old <+: before ++ c :: es :=
    fun hPrefix =>
      hBefore (isPrefix_of_append_cons hNot hPrefix)
  induction hFirst with
  | nil =>
      have hNone : ¬ old <+: [] := by
        rwa [List.prefix_nil]
      exact .kept (hApart hNone) hSecond
  | found _ ih =>
      rw [List.append_assoc, List.append_assoc]
      exact .found ih
  | kept hHere _ ih =>
      exact .kept (hApart hHere) ih

------------------------------------------------------------
-- Occurrences in the Result
------------------------------------------------------------

section Single

variable {n : Char}
variable {w : List Char}

/-
  What starts the result, without the character that was put
  in, has started the text.
-/
theorem IsReplaced.isPrefix
    (hNot : n ∉ w)
    (hReplaced : IsReplaced old [n] cs ds)
    (hPrefix : w <+: ds) :
    w <+: cs := by
  induction hReplaced generalizing w with
  | nil =>
      exact hPrefix
  | found _ _ =>
      rw [eq_nil_of_isPrefix_cons hNot hPrefix]
      exact List.nil_prefix
  | kept _ _ ih =>
      rcases List.prefix_cons_iff.mp hPrefix with
        rfl | ⟨rest, rfl, hRest⟩
      · exact List.nil_prefix
      · rw [List.cons_prefix_cons]
        exact ⟨rfl,
          ih (fun hMem => hNot (List.mem_cons_of_mem _ hMem))
            hRest⟩

/-
  What occurs in the result, without the character that was
  put in, has occurred in the text.
-/
theorem IsReplaced.isInfix
    (hNot : n ∉ w)
    (hReplaced : IsReplaced old [n] cs ds)
    (hInfix : w <:+: ds) :
    w <:+: cs := by
  induction hReplaced with
  | nil =>
      exact hInfix
  | found _ ih =>
      rcases List.infix_cons_iff.mp hInfix with
        hPrefix | hRest
      · rw [eq_nil_of_isPrefix_cons hNot hPrefix]
        exact List.nil_infix
      · exact (ih hRest).trans
          (List.suffix_append _ _).isInfix
  | kept hHere hRest ih =>
      rcases List.infix_cons_iff.mp hInfix with
        hPrefix | hLater
      · exact ((IsReplaced.kept hHere hRest).isPrefix hNot
          hPrefix).isInfix
      · exact List.infix_cons (ih hLater)

/-
  There are no occurrences in the result, if they do not
  have the character that was put in.
-/
theorem IsReplaced.not_isInfix
    (hOld : old ≠ [])
    (hNot : n ∉ old)
    (hReplaced : IsReplaced old [n] cs ds) :
    ¬ old <:+: ds := by
  induction hReplaced with
  | nil =>
      rwa [List.infix_nil]
  | found _ ih =>
      intro hInfix
      rcases List.infix_cons_iff.mp hInfix with
        hPrefix | hRest
      · exact hOld (eq_nil_of_isPrefix_cons hNot hPrefix)
      · exact ih hRest
  | kept hHere hRest ih =>
      intro hInfix
      rcases List.infix_cons_iff.mp hInfix with
        hPrefix | hLater
      · exact hHere ((IsReplaced.kept hHere hRest).isPrefix
          hNot hPrefix)
      · exact ih hLater

end Single

end Chars

end Slideshow

import Mathlib.Data.List.Induction
import Slideshow.Picture.Request
import Slideshow.Proofs.Text.Replace

/-
  This file proves what is left of a prompt when the marks
  of bold text and the tags of line breaks are taken out.

  Dropping pairs of asterisks leaves no other pair: of each
  run there is one asterisk left or none, and runs are apart
  (`Prompt.unbold_append_pair`).  It may bring a tag
  together, which is then replaced like the others.  A line
  break is in no mark and no tag, so neither comes into
  being where a tag was.

  Key definitions include:
    * `Prompt.Part`
    * `Prompt.IsCleaned`

  Main results include:
    * `Prompt.unbold_append_pair`
    * `Prompt.exists_parts`
    * `Prompt.isCleaned_clean`
    * `Prompt.clean_run`
    * `Prompt.clean_isCleaned_and_runs`
-/

namespace Slideshow

namespace Prompt

open Chars

variable {cs ds before : List Char}

/- The mark of bold text. -/
def mark : List Char :=
  ['*', '*']

/- The tag of a line break. -/
def tag : List Char :=
  ['<', 'b', 'r', '>']

theorem toList_mark : "**".toList = mark := by
  decide

theorem toList_tag : "<br>".toList = tag := by
  decide

/- A run of asterisks. -/
def stars (k : Nat) : List Char :=
  List.replicate k '*'

------------------------------------------------------------
-- Marks
------------------------------------------------------------

/- A text without the marks of bold text. -/
def unbold (cs : List Char) : List Char :=
  replaceText mark [] cs

theorem unbold_pair (cs : List Char) :
    unbold ('*' :: '*' :: cs) = unbold cs := by
  have hMark : mark ≠ [] := by
    simp [mark]
  exact replaceText_append [] cs hMark

theorem unbold_cons
    {c : Char}
    (hPlain : c ≠ '*') :
    unbold (c :: cs) = c :: unbold cs :=
  replaceText_cons [] (by simp [mark, hPlain.symm])

/- An asterisk is kept if there is no second one. -/
theorem unbold_star
    (hSingle : cs.head? ≠ some '*') :
    unbold ('*' :: cs) = '*' :: unbold cs := by
  apply replaceText_cons
  rw [mark, List.cons_prefix_cons, not_and]
  rintro - ⟨rest, rfl⟩
  exact hSingle rfl

theorem unbold_star_cons
    {d : Char}
    (hSecond : d ≠ '*')
    (cs : List Char) :
    unbold ('*' :: d :: cs) = '*' :: unbold (d :: cs) :=
  unbold_star (by simpa using hSecond)

theorem head?_unbold
    (hHead : cs.head? ≠ some '*') :
    (unbold cs).head? ≠ some '*' := by
  cases cs with
  | nil =>
      exact hHead
  | cons c cs =>
      rw [unbold_cons (by simpa using hHead)]
      exact hHead

/- No mark is left. -/
theorem not_isInfix_unbold (cs : List Char) :
    ¬ mark <:+: unbold cs := by
  have hReplaced : IsReplaced mark [] cs (unbold cs) :=
    isReplaced_replaceText [] (by simp [mark]) cs
  generalize unbold cs = ds at hReplaced
  induction hReplaced with
  | nil =>
      simp [mark]
  | found _ ih =>
      exact ih
  | @kept c cs ds hNot hRest ih =>
      rw [List.infix_cons_iff, not_or]
      refine ⟨?_, ih⟩
      rw [mark, List.cons_prefix_cons]
      rintro ⟨rfl, hNext⟩
      have hSingle : cs.head? ≠ some '*' := by
        rintro hHead
        rcases List.head?_eq_some_iff.mp hHead with
          ⟨rest, rfl⟩
        exact hNot ⟨rest, rfl⟩
      have hUnbold : unbold cs = ds :=
        (replaceText_eq_iff (by simp [mark])).mpr hRest
      rcases hNext with ⟨rest, rfl⟩
      apply head?_unbold hSingle
      rw [hUnbold]
      rfl

/-
  A mark makes no difference wherever it stands.  In a run
  of asterisks it does not matter which are taken for it.
-/
theorem unbold_append_pair (before after : List Char) :
    unbold (before ++ '*' :: '*' :: after) =
      unbold (before ++ after) := by
  induction before using List.twoStepInduction with
  | nil =>
      exact unbold_pair after
  | singleton c =>
      by_cases hStar : c = '*'
      · subst hStar
        exact unbold_pair ('*' :: after)
      · rw [List.singleton_append, List.singleton_append,
          unbold_cons hStar, unbold_cons hStar,
          unbold_pair]
  | cons_cons c d rest ih ih' =>
      by_cases hFirst : c = '*'
      · subst hFirst
        by_cases hSecond : d = '*'
        · subst hSecond
          exact (unbold_pair _).trans
            (ih.trans (unbold_pair _).symm)
        · exact (unbold_star_cons hSecond _).trans
            ((congrArg _ (ih' d)).trans
              (unbold_star_cons hSecond _).symm)
      · exact (unbold_cons hFirst).trans
          ((congrArg _ (ih' d)).trans
            (unbold_cons hFirst).symm)

/- Of a run of asterisks the last one matters, if any. -/
theorem unbold_append_stars
    (before after : List Char)
    (k : Nat) :
    unbold (before ++ (stars k ++ after)) =
      unbold (before ++ (stars (k % 2) ++ after)) := by
  induction k using Nat.twoStepInduction with
  | zero =>
      rfl
  | one =>
      rfl
  | more k ih _ =>
      rw [Nat.add_mod_right, ← ih]
      exact unbold_append_pair before (stars k ++ after)

/- Texts are apart if the first ends in no asterisk. -/
theorem unbold_append
    (after : List Char)
    (hEnd : before.getLast? ≠ some '*') :
    unbold (before ++ after) =
      unbold before ++ unbold after := by
  induction before using List.twoStepInduction with
  | nil =>
      rfl
  | singleton c =>
      have hPlain : c ≠ '*' := by simpa using hEnd
      rw [List.singleton_append, unbold_cons hPlain,
        unbold_cons hPlain]
      rfl
  | cons_cons c d rest ih ih' =>
      have hLater : (d :: rest).getLast? ≠ some '*' := by
        rwa [List.getLast?_cons_cons] at hEnd
      have hNext := ih' d hLater
      by_cases hFirst : c = '*'
      · subst hFirst
        by_cases hSecond : d = '*'
        · subst hSecond
          have hRest : rest.getLast? ≠ some '*' := by
            cases rest with
            | nil =>
                simp
            | cons e rest =>
                rwa [List.getLast?_cons_cons] at hLater
          rw [unbold_pair, ← ih hRest]
          exact unbold_pair (rest ++ after)
        · rw [unbold_star_cons hSecond]
          exact (unbold_star_cons hSecond _).trans
            (congrArg _ hNext)
      · rw [unbold_cons hFirst]
        exact (unbold_cons hFirst).trans
          (congrArg _ hNext)

------------------------------------------------------------
-- Parts
------------------------------------------------------------

/-
  What a prompt is made of: characters that are kept, marks
  of bold text, and tags of line breaks.  A tag may be
  interrupted by marks behind each of its first three
  characters.
-/
inductive Part where
| kept (c : Char)
| mark
| tag (first second third : Nat)
deriving DecidableEq, Repr

namespace Part

/- A part as it is written in the prompt. -/
def written : Part → List Char
  | kept c => [c]
  | mark => Prompt.mark
  | tag first second third =>
      '<' :: stars (2 * first) ++ 'b' :: stars (2 * second) ++
        'r' :: stars (2 * third) ++ ['>']

/- What is left of a part. -/
def left : Part → List Char
  | kept c => [c]
  | mark => []
  | tag _ _ _ => ['\n']

theorem written_marks (count : Nat) :
    (List.replicate count mark).flatMap written =
      stars (2 * count) := by
  induction count with
  | zero =>
      rfl
  | succ count ih =>
      rw [List.replicate_succ, List.flatMap_cons, ih]
      rfl

theorem left_marks (count : Nat) :
    (List.replicate count mark).flatMap left = [] := by
  rw [List.flatMap_eq_nil_iff]
  intro part hPart
  rw [List.eq_of_mem_replicate hPart]
  rfl

end Part

/- A text of which nothing is left was made of marks. -/
theorem exists_stars_of_nil
    (hReplaced : IsReplaced mark [] cs ds)
    (hNone : ds = []) :
    ∃ count, cs = stars (2 * count) := by
  induction hReplaced with
  | nil =>
      exact ⟨0, rfl⟩
  | found _ ih =>
      rcases ih hNone with ⟨count, rfl⟩
      exact ⟨count + 1, rfl⟩
  | kept _ _ _ =>
      cases hNone

/- In front of the first character left there were marks. -/
theorem exists_stars_of_cons
    {c : Char}
    (hReplaced : IsReplaced mark [] cs (c :: ds)) :
    ∃ count rest,
      cs = stars (2 * count) ++ c :: rest ∧
        IsReplaced mark [] rest ds := by
  generalize hSome : c :: ds = es at hReplaced
  induction hReplaced with
  | nil =>
      cases hSome
  | found _ ih =>
      rcases ih hSome with ⟨count, rest, rfl, hRest⟩
      exact ⟨count + 1, rest, rfl, hRest⟩
  | kept _ hRest _ =>
      cases hSome
      exact ⟨0, _, rfl, hRest⟩

/-
  A prompt can be read as parts.  The induction follows the
  replacing of tags; for each character that it passes, the
  marks in front of it are found in the prompt.
-/
theorem exists_parts
    {middle : List Char}
    (hMarks : IsReplaced mark [] cs middle)
    (hTags : IsReplaced tag ['\n'] middle ds) :
    ∃ parts : List Part,
      cs = parts.flatMap Part.written ∧
        ds = parts.flatMap Part.left := by
  induction hTags generalizing cs with
  | nil =>
      rcases exists_stars_of_nil hMarks rfl with
        ⟨count, rfl⟩
      exact ⟨List.replicate count .mark,
        (Part.written_marks count).symm,
        (Part.left_marks count).symm⟩
  | found _ ih =>
      rcases exists_stars_of_cons hMarks with
        ⟨count, _, rfl, hFirst⟩
      rcases exists_stars_of_cons hFirst with
        ⟨first, _, rfl, hSecond⟩
      rcases exists_stars_of_cons hSecond with
        ⟨second, _, rfl, hThird⟩
      rcases exists_stars_of_cons hThird with
        ⟨third, _, rfl, hRest⟩
      rcases ih hRest with ⟨parts, rfl, rfl⟩
      refine ⟨List.replicate count .mark ++
        .tag first second third :: parts, ?_, ?_⟩
      · rw [List.flatMap_append, Part.written_marks]
        simp [Part.written]
      · rw [List.flatMap_append, Part.left_marks]
        rfl
  | @kept c _ _ _ _ ih =>
      rcases exists_stars_of_cons hMarks with
        ⟨count, _, rfl, hRest⟩
      rcases ih hRest with ⟨parts, rfl, rfl⟩
      refine ⟨List.replicate count .mark ++
        .kept c :: parts, ?_, ?_⟩
      · rw [List.flatMap_append, Part.written_marks]
        rfl
      · rw [List.flatMap_append, Part.left_marks]
        rfl

------------------------------------------------------------
-- Clean Prompts
------------------------------------------------------------

/-
  A prompt has been cleaned: it can be read as parts such
  that nothing is left of the marks, a line break is left of
  each tag, and all other characters are kept in order.  No
  mark and no tag is left.
-/
structure IsCleaned (prompt result : String) : Prop where
  parts : ∃ parts : List Part,
    prompt.toList = parts.flatMap Part.written ∧
      result.toList = parts.flatMap Part.left
  noMark : ¬ "**".toList <:+: result.toList
  noTag : ¬ "<br>".toList <:+: result.toList

theorem toList_clean (s : String) :
    (clean s).toList =
      replaceText tag ['\n'] (unbold s.toList) := by
  have hBreak : "\n".toList = ['\n'] := by
    decide
  rw [clean, Text.replaceText, Text.replaceText, toList_mark,
    toList_tag, hBreak, String.toList_empty,
    String.toList_ofList, String.toList_ofList, unbold]

theorem isReplaced_clean (s : String) :
    IsReplaced tag ['\n'] (unbold s.toList)
      (clean s).toList := by
  rw [toList_clean]
  exact isReplaced_replaceText _ (by simp [tag]) _

/- A prompt that was cleaned is clean. -/
theorem isCleaned_clean (s : String) :
    IsCleaned s (clean s) where
  parts :=
    exists_parts
      (isReplaced_replaceText [] (by simp [mark]) _)
      (isReplaced_clean s)
  noMark := by
    rw [toList_mark]
    intro hMark
    exact not_isInfix_unbold s.toList
      ((isReplaced_clean s).isInfix (by decide) hMark)
  noTag := by
    rw [toList_tag]
    exact (isReplaced_clean s).not_isInfix (by simp [tag])
      (by decide)

/- A clean prompt is left alone. -/
theorem clean_of_isCleaned
    {prompt result : String}
    (hCleaned : IsCleaned prompt result) :
    clean result = result := by
  have hMark := hCleaned.noMark
  have hTag := hCleaned.noTag
  rw [toList_mark] at hMark
  rw [toList_tag] at hTag
  rw [← String.toList_inj, toList_clean, unbold,
    replaceText_eq_self [] hMark,
    replaceText_eq_self _ hTag]

/-
  An asterisk is left of a run of odd length, and nothing of
  the others.  What is on both sides of one that is left
  stays apart.
-/
theorem clean_run
    {before after : String}
    (hBefore : before.toList.getLast? ≠ some '*')
    (hAfter : after.toList.head? ≠ some '*')
    (k : Nat) :
    clean (before ++ String.ofList (stars k) ++ after) =
      if k % 2 = 1 then
        clean before ++ "*" ++ clean after
      else clean (before ++ after) := by
  rw [← String.toList_inj]
  by_cases hOdd : k % 2 = 1
  · have hUnbold :
        unbold (before.toList ++
            (stars k ++ after.toList)) =
          unbold before.toList ++
            '*' :: unbold after.toList := by
      rw [unbold_append_stars, hOdd,
        unbold_append _ hBefore]
      exact congrArg _ (unbold_star hAfter)
    have hTags :=
      (isReplaced_clean before).append_cons (c := '*')
        (by simp [tag]) (by decide) (isReplaced_clean after)
    rw [if_pos hOdd, toList_clean, String.toList_append,
      String.toList_append, String.toList_ofList,
      List.append_assoc, hUnbold,
      (replaceText_eq_iff (by simp [tag])).mpr hTags]
    simp
  · have hEven : k % 2 = 0 := by omega
    rw [if_neg hOdd, toList_clean, toList_clean,
      String.toList_append, String.toList_append,
      String.toList_append, String.toList_ofList,
      List.append_assoc, unbold_append_stars, hEven]
    rfl

/-
  A clean prompt has no marks and no tags, all else is kept
  in order, and it stays as it is when it is cleaned again.
  Of a run of asterisks one is left if their number is odd,
  and none if it is even.
-/
theorem clean_isCleaned_and_runs (s : String) :
    IsCleaned s (clean s) ∧
      clean (clean s) = clean s ∧
      ∀ (before after : String) (k : Nat),
        s = before ++ String.ofList (stars k) ++ after →
        before.toList.getLast? ≠ some '*' →
        after.toList.head? ≠ some '*' →
        clean s =
          if k % 2 = 1 then
            clean before ++ "*" ++ clean after
          else clean (before ++ after) := by
  refine ⟨isCleaned_clean s,
    clean_of_isCleaned (isCleaned_clean s), ?_⟩
  rintro before after k rfl hBefore hAfter
  exact clean_run hBefore hAfter k

/- A run behind a tag that is interrupted by a mark. -/
theorem clean_isCleaned_and_runs_interrupted :
    let before := "fog<b**r>rolling"
    let after := " in"
    before.toList.getLast? ≠ some '*' ∧
      after.toList.head? ≠ some '*' ∧
      IsCleaned
        (before ++ String.ofList (stars 3) ++ after)
        (clean
          (before ++ String.ofList (stars 3) ++ after)) ∧
      clean (before ++ String.ofList (stars 3) ++ after) =
        clean before ++ "*" ++ clean after ∧
      clean before = "fog\nrolling" := by
  intro before after
  have hBefore : before.toList.getLast? ≠ some '*' := by
    decide
  have hAfter : after.toList.head? ≠ some '*' := by
    decide
  have hClean := clean_isCleaned_and_runs
    (before ++ String.ofList (stars 3) ++ after)
  exact ⟨hBefore, hAfter, hClean.1,
    hClean.2.2 before after 3 rfl hBefore hAfter,
    by decide⟩

end Prompt

end Slideshow

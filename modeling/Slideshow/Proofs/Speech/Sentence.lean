import Mathlib.Data.List.Chain
import Slideshow.Proofs.Text.Blank
import Slideshow.Speech.Sentence

/-
  This file proves which sentences a text has.

  They are the only pieces that make up the text, end in a
  terminator with blanks up to the next piece, apart from
  the last one, and have no such place within
  (`Sentence.AreSentencesOf`).  The proof follows the first
  cut: a piece is taken first exactly if it has no place to
  cut and what follows it begins behind one
  (`Sentence.takeFirst_append_eq`).

  From this the sentences of a part are known without
  cutting it again: those of neighbouring sentences are the
  same ones, and trimming a text changes nothing but the
  blanks around it.

  Key definitions include:
    * `Sentence.HasInnerBreak`
    * `Sentence.EndsAtBreak`
    * `Sentence.AreSentencesOf`
    * `Sentence.AreApart`

  Main results include:
    * `Sentence.takeFirst_append_eq`
    * `Sentence.areSentencesOf_split`
    * `Sentence.AreSentencesOf.eq_split`
    * `Sentence.AreSentencesOf.of_isInfix`
    * `Sentence.map_words_split_trim`
    * `sentences_eq_iff_areSentencesOf`
-/

namespace Slideshow

namespace Chars

/- Words are those of two parts with a break between. -/
theorem words_append
    {before after : List Char}
    (hBreak : Sentence.atBreak after = true) :
    words (before ++ after) =
      words before ++ words after := by
  cases after with
  | nil =>
      rw [List.append_nil]
      exact (List.append_nil _).symm
  | cons c after =>
      rw [words_append_cons before after hBreak,
        words_cons after hBreak]

end Chars

namespace Sentence

------------------------------------------------------------
-- Places to Cut
------------------------------------------------------------

/-
  A terminator in front of a blank, with more than blanks
  behind it: a place to cut within the text.
-/
def HasInnerBreak (cs : List Char) : Prop :=
  ∃ before terminator blank after,
    cs = before ++ terminator :: blank :: after ∧
      isTerminator terminator = true ∧
      isBlank blank = true ∧
      ¬ Chars.AreBlank after

/- The text ends in a terminator with blanks behind it. -/
def EndsAtBreak (cs : List Char) : Prop :=
  ∃ body terminator blanks,
    cs = body ++ terminator :: blanks ∧
      isTerminator terminator = true ∧
      blanks ≠ [] ∧
      Chars.AreBlank blanks

/-
  One piece ends in a terminator and blanks, and these go up
  to the next piece.
-/
structure IsFollowedBy (piece next : List Char) : Prop where
  ends : EndsAtBreak piece
  starts : Chars.StartsVisible next

/-
  Pieces of a text that are not empty, cut at every place to
  cut and nowhere else.
-/
structure AreSentencesOf
    (cs : List Char)
    (pieces : List (List Char)) : Prop where
  flatten_eq : pieces.flatten = cs
  ne_nil : ∀ piece ∈ pieces, piece ≠ []
  apart : pieces.IsChain IsFollowedBy
  unbroken : ∀ piece ∈ pieces, ¬ HasInnerBreak piece

theorem isBlank_of_isTerminator
    {c : Char}
    (hTerminator : isTerminator c = true) :
    isBlank c = false := by
  simp only [isTerminator, Bool.or_eq_true, beq_iff_eq]
    at hTerminator
  rcases hTerminator with (rfl | rfl) | rfl
  · decide
  · decide
  · decide

theorem HasInnerBreak.cons
    {cs : List Char}
    (hBreak : HasInnerBreak cs)
    (c : Char) :
    HasInnerBreak (c :: cs) := by
  rcases hBreak with
    ⟨before, terminator, blank, after, rfl, hRest⟩
  exact ⟨c :: before, terminator, blank, after, rfl, hRest⟩

theorem EndsAtBreak.endsBlank
    {cs : List Char}
    (hEnds : EndsAtBreak cs) :
    Chars.EndsBlank cs := by
  rcases hEnds with
    ⟨body, terminator, blanks, rfl, -, hSome, hBlank⟩
  rw [List.append_cons,
    Chars.endsBlank_append_iff _ hSome]
  exact hBlank.endsBlank

/- A text that ends at a break is not blank. -/
theorem EndsAtBreak.not_areBlank
    {cs : List Char}
    (hEnds : EndsAtBreak cs) :
    ¬ Chars.AreBlank cs := by
  rcases hEnds with
    ⟨body, terminator, blanks, rfl, hTerminator, -⟩
  intro hBlank
  have hBoth := hBlank terminator
    (List.mem_append_right body List.mem_cons_self)
  rw [isBlank_of_isTerminator hTerminator] at hBoth
  cases hBoth

theorem EndsAtBreak.cons
    {cs : List Char}
    (hEnds : EndsAtBreak cs)
    (c : Char) :
    EndsAtBreak (c :: cs) := by
  rcases hEnds with ⟨body, terminator, blanks, rfl, hRest⟩
  exact ⟨c :: body, terminator, blanks, rfl, hRest⟩

/-
  Without its first character a text still ends at a break,
  unless that is where it was cut.
-/
theorem EndsAtBreak.of_cons
    {c : Char}
    {cs rest : List Char}
    (hEnds : EndsAtBreak (c :: cs))
    (hNot :
      ¬ (isTerminator c && atBreak (cs ++ rest)) = true) :
    EndsAtBreak cs := by
  rcases hEnds with
    ⟨body, terminator, blanks, hEq, hTerminator, hSome,
      hBlank⟩
  cases body with
  | nil =>
      rw [List.nil_append, List.cons.injEq] at hEq
      rcases hEq with ⟨rfl, rfl⟩
      rcases List.exists_cons_of_ne_nil hSome with
        ⟨blank, after, rfl⟩
      exfalso
      apply hNot
      rw [Bool.and_eq_true]
      exact ⟨hTerminator, hBlank blank List.mem_cons_self⟩
  | cons d body =>
      rw [List.cons_append, List.cons.injEq] at hEq
      exact ⟨body, terminator, blanks, hEq.2, hTerminator,
        hSome, hBlank⟩

/-
  Without a place to cut, all behind a terminator and a
  blank is blank.
-/
theorem areBlank_of_atBreak
    {c : Char}
    {cs : List Char}
    (hUnbroken : ¬ HasInnerBreak (c :: cs))
    (hTerminator : isTerminator c = true)
    (hBreak : atBreak cs = true) :
    Chars.AreBlank cs := by
  cases cs with
  | nil =>
      exact fun d hd => absurd hd List.not_mem_nil
  | cons blank after =>
      have hAfter : Chars.AreBlank after := by
        by_contra hVisible
        exact hUnbroken ⟨[], c, blank, after, rfl,
          hTerminator, hBreak, hVisible⟩
      intro d hd
      rcases List.mem_cons.mp hd with rfl | hd
      · exact hBreak
      · exact hAfter d hd

------------------------------------------------------------
-- The First Sentence
------------------------------------------------------------

/-
  A piece without a place to cut is taken first, if it is
  the whole text or ends at a break in front of the rest.
-/
theorem takeFirst_append_eq
    {piece rest : List Char}
    (hUnbroken : ¬ HasInnerBreak piece)
    (hRest : rest = [] ∨ IsFollowedBy piece rest) :
    takeFirst (piece ++ rest) = (piece, rest) := by
  induction piece with
  | nil =>
      rcases hRest with rfl | ⟨hEnds, -⟩
      · rfl
      · rcases hEnds with ⟨body, terminator, blanks, hEq, -⟩
        simp at hEq
  | cons c piece ih =>
      by_cases hEnd :
          (isTerminator c && atBreak (piece ++ rest)) = true
      · have hBoth := Bool.and_eq_true_iff.mp hEnd
        have hBreak : atBreak piece = true := by
          cases piece with
          | nil => rfl
          | cons d piece => exact hBoth.2
        have hVisible :
            rest = [] ∨ Chars.StartsVisible rest :=
          hRest.imp_right IsFollowedBy.starts
        have hSpan := Chars.span_blanks_append
          (areBlank_of_atBreak hUnbroken hBoth.1 hBreak)
          hVisible
        rw [List.cons_append, takeFirst, if_pos hEnd,
          hSpan.1, hSpan.2]
      · have hTail : ¬ HasInnerBreak piece := fun hInner =>
          hUnbroken (hInner.cons c)
        have hBehind :
            rest = [] ∨ IsFollowedBy piece rest := by
          apply hRest.imp_right
          rintro ⟨hEnds, hStarts⟩
          exact ⟨hEnds.of_cons hEnd, hStarts⟩
        rw [List.cons_append, takeFirst, if_neg hEnd,
          ih hTail hBehind]

/- There is no place to cut within the first sentence. -/
theorem takeFirst_unbroken (cs : List Char) :
    ¬ HasInnerBreak (takeFirst cs).1 := by
  induction cs with
  | nil =>
      rintro ⟨before, terminator, blank, after, hEq, -⟩
      simp [takeFirst] at hEq
  | cons c rest ih =>
      rintro ⟨before, terminator, blank, after, hEq,
        hTerminator, hBlank, hVisible⟩
      by_cases hEnd : (isTerminator c && atBreak rest) = true
      · rw [takeFirst, if_pos hEnd] at hEq
        have hBlanks :
            Chars.AreBlank (rest.takeWhile isBlank) :=
          fun d hd => List.mem_takeWhile_imp hd
        cases before with
        | nil =>
            rw [List.nil_append, List.cons.injEq] at hEq
            apply hVisible
            intro d hd
            apply hBlanks
            rw [hEq.2]
            exact List.mem_cons_of_mem blank hd
        | cons d before =>
            rw [List.cons_append, List.cons.injEq] at hEq
            have hMem :
                terminator ∈ rest.takeWhile isBlank := by
              rw [hEq.2]
              exact List.mem_append_right before
                List.mem_cons_self
            have hBoth := hBlanks terminator hMem
            rw [isBlank_of_isTerminator hTerminator] at hBoth
            cases hBoth
      · rw [takeFirst, if_neg hEnd] at hEq
        cases before with
        | nil =>
            rw [List.nil_append, List.cons.injEq] at hEq
            rcases hEq with ⟨rfl, hFirst⟩
            apply hEnd
            rw [← takeFirst_append rest, hFirst,
              Bool.and_eq_true]
            exact ⟨hTerminator, hBlank⟩
        | cons d before =>
            rw [List.cons_append, List.cons.injEq] at hEq
            exact ih ⟨before, terminator, blank, after,
              hEq.2, hTerminator, hBlank, hVisible⟩

/- What the first sentence leaves starts behind a break. -/
theorem takeFirst_isFollowedBy (cs : List Char) :
    (takeFirst cs).2 = [] ∨
      IsFollowedBy (takeFirst cs).1 (takeFirst cs).2 := by
  induction cs with
  | nil => exact Or.inl rfl
  | cons c rest ih =>
      by_cases hEnd : (isTerminator c && atBreak rest) = true
      · rw [takeFirst, if_pos hEnd]
        by_cases hNone : rest.dropWhile isBlank = []
        · exact Or.inl hNone
        · right
          refine ⟨⟨[], c, _, rfl, ?_, ?_, ?_⟩,
            Chars.startsVisible_dropWhile hNone⟩
          · exact (Bool.and_eq_true_iff.mp hEnd).1
          · cases rest with
            | nil => exact absurd rfl hNone
            | cons d after =>
                have hBreak : isBlank d = true :=
                  (Bool.and_eq_true_iff.mp hEnd).2
                rw [List.takeWhile_cons_of_pos hBreak]
                exact List.cons_ne_nil _ _
          · exact fun d hd => List.mem_takeWhile_imp hd
      · rw [takeFirst, if_neg hEnd]
        apply ih.imp_right
        rintro ⟨hEnds, hStarts⟩
        exact ⟨hEnds.cons c, hStarts⟩

------------------------------------------------------------
-- All Sentences
------------------------------------------------------------

/- What is left of sentences is a text cut into them. -/
theorem AreSentencesOf.of_isInfix
    {cs : List Char}
    {pieces part : List (List Char)}
    (hPieces : AreSentencesOf cs pieces)
    (hPart : part <:+: pieces) :
    AreSentencesOf part.flatten part where
  flatten_eq := rfl
  ne_nil := fun piece hPiece =>
    hPieces.ne_nil piece (hPart.subset hPiece)
  apart := hPieces.apart.infix hPart
  unbroken := fun piece hPiece =>
    hPieces.unbroken piece (hPart.subset hPiece)

/- A piece without a place to cut is the first sentence. -/
theorem split_append_eq
    {piece rest : List Char}
    (hSome : piece ≠ [])
    (hUnbroken : ¬ HasInnerBreak piece)
    (hRest : rest = [] ∨ IsFollowedBy piece rest) :
    split (piece ++ rest) = piece :: split rest := by
  have hFirst := takeFirst_append_eq hUnbroken hRest
  rcases List.exists_cons_of_ne_nil hSome with ⟨c, cs, rfl⟩
  rw [List.cons_append] at hFirst ⊢
  rw [split, hFirst]

theorem split_eq_singleton
    {piece : List Char}
    (hSome : piece ≠ [])
    (hUnbroken : ¬ HasInnerBreak piece) :
    split piece = [piece] := by
  have hSplit :=
    split_append_eq hSome hUnbroken (Or.inl rfl)
  rwa [List.append_nil, split] at hSplit

theorem flatten_split (cs : List Char) :
    (split cs).flatten = cs := by
  fun_induction split cs with
  | case1 => rfl
  | case2 c rest ih =>
      rw [List.flatten_cons, ih, takeFirst_append]

/- The first sentence starts where the text does. -/
theorem startsVisible_of_split
    {cs piece : List Char}
    (hStarts : Chars.StartsVisible cs)
    (hPiece : piece ∈ (split cs).head?) :
    Chars.StartsVisible piece := by
  rcases hStarts with ⟨c, rest, rfl, hVisible⟩
  rw [split, List.head?_cons, Option.mem_some] at hPiece
  rw [← hPiece]
  by_cases hEnd : (isTerminator c && atBreak rest) = true
  · rw [takeFirst, if_pos hEnd]
    exact ⟨c, _, rfl, hVisible⟩
  · rw [takeFirst, if_neg hEnd]
    exact ⟨c, _, rfl, hVisible⟩

/- Neighbouring sentences part at a break. -/
theorem isChain_split (cs : List Char) :
    (split cs).IsChain IsFollowedBy := by
  fun_induction split cs with
  | case1 => exact List.IsChain.nil
  | case2 c rest ih =>
      rw [List.isChain_cons]
      refine ⟨?_, ih⟩
      intro next hNext
      rcases takeFirst_isFollowedBy (c :: rest) with
        hNone | ⟨hEnds, hStarts⟩
      · rw [hNone, split] at hNext
        cases hNext
      · exact ⟨hEnds, startsVisible_of_split hStarts hNext⟩

/- A sentence comes first in some text. -/
theorem exists_takeFirst_of_mem_split
    {cs piece : List Char}
    (hPiece : piece ∈ split cs) :
    ∃ c rest, piece = (takeFirst (c :: rest)).1 := by
  fun_induction split cs with
  | case1 => cases hPiece
  | case2 c rest ih =>
      rcases List.mem_cons.mp hPiece with hFirst | hLater
      · exact ⟨c, rest, hFirst⟩
      · exact ih hLater

/- A text is cut into its sentences. -/
theorem areSentencesOf_split (cs : List Char) :
    AreSentencesOf cs (split cs) where
  flatten_eq := flatten_split cs
  ne_nil := by
    intro piece hPiece
    rcases exists_takeFirst_of_mem_split hPiece with
      ⟨c, rest, rfl⟩
    exact takeFirst_fst_ne_nil c rest
  apart := isChain_split cs
  unbroken := by
    intro piece hPiece
    rcases exists_takeFirst_of_mem_split hPiece with
      ⟨c, rest, rfl⟩
    exact takeFirst_unbroken (c :: rest)

/- What follows a sentence, joined again, follows it. -/
theorem eq_nil_or_isFollowedBy_flatten
    {piece : List Char}
    {pieces : List (List Char)}
    (hApart : (piece :: pieces).IsChain IsFollowedBy) :
    pieces.flatten = [] ∨
      IsFollowedBy piece pieces.flatten := by
  cases pieces with
  | nil => exact Or.inl rfl
  | cons next pieces =>
      rcases List.isChain_cons_cons.mp hApart with
        ⟨⟨hEnds, hStarts⟩, -⟩
      rw [List.flatten_cons]
      exact Or.inr ⟨hEnds, hStarts.append _⟩

/- Only the sentences of a text are cut as they are. -/
theorem AreSentencesOf.eq_split
    {cs : List Char}
    {pieces : List (List Char)}
    (hPieces : AreSentencesOf cs pieces) :
    pieces = split cs := by
  rw [← hPieces.flatten_eq]
  induction pieces generalizing cs with
  | nil =>
      rw [List.flatten_nil, split]
  | cons piece pieces ih =>
      have hRest : AreSentencesOf pieces.flatten pieces :=
        hPieces.of_isInfix (List.suffix_cons piece pieces).isInfix
      rw [List.flatten_cons,
        split_append_eq
          (hPieces.ne_nil piece List.mem_cons_self)
          (hPieces.unbroken piece List.mem_cons_self)
          (eq_nil_or_isFollowedBy_flatten hPieces.apart),
        ← ih hRest]

theorem split_flatten_of_isInfix
    {cs : List Char}
    {part : List (List Char)}
    (hPart : part <:+: split cs) :
    split part.flatten = part :=
  ((areSentencesOf_split cs).of_isInfix hPart).eq_split.symm

/- A text that is not blank has no blank sentence. -/
theorem not_areBlank_of_mem_split
    {cs piece : List Char}
    (hSome : ¬ Chars.AreBlank cs)
    (hPiece : piece ∈ split cs) :
    ¬ Chars.AreBlank piece := by
  have hText := flatten_split cs
  have hApart := isChain_split cs
  rcases List.append_of_mem hPiece with
    ⟨before, after, hSplit⟩
  rw [hSplit] at hText hApart
  have hBehind := (List.isChain_append.mp hApart).2
  cases after with
  | cons next after =>
      exact (List.isChain_cons_cons.mp
        hBehind.1).1.ends.not_areBlank
  | nil =>
      rcases List.eq_nil_or_concat' before with
        rfl | ⟨front, previous, rfl⟩
      · rw [List.nil_append, List.flatten_singleton] at hText
        rwa [hText]
      · have hFollowed := hBehind.2 previous
          List.getLast?_concat piece rfl
        exact hFollowed.starts.not_areBlank

/- All sentences but the last one end in blanks. -/
def AreApart : List (List Char) → Prop
  | [] => True
  | sentence :: rest =>
      (rest = [] ∨ Chars.EndsBlank sentence) ∧ AreApart rest

/- The sentences of a text part at blanks. -/
theorem split_areApart (cs : List Char) :
    AreApart (split cs) := by
  have hApart := isChain_split cs
  generalize split cs = pieces at hApart ⊢
  induction pieces with
  | nil => exact trivial
  | cons piece pieces ih =>
      rw [List.isChain_cons] at hApart
      refine ⟨?_, ih hApart.2⟩
      cases pieces with
      | nil => exact Or.inl rfl
      | cons next pieces =>
          have hFollowed := hApart.1 next rfl
          exact Or.inr hFollowed.ends.endsBlank

------------------------------------------------------------
-- Words
------------------------------------------------------------

/- The words of a text are those of its sentences. -/
theorem flatMap_words_split (cs : List Char) :
    (split cs).flatMap Chars.words = Chars.words cs := by
  fun_induction split cs with
  | case1 => rfl
  | case2 c rest ih =>
      conv_rhs => rw [← takeFirst_append (c :: rest)]
      rw [List.flatMap_cons, ih]
      rcases takeFirst_isFollowedBy (c :: rest) with
        hNone | hFollowed
      · rw [hNone, List.append_nil]
        exact List.append_nil _
      · rw [Chars.words_append_of_endsBlank _
          hFollowed.ends.endsBlank]

/- Blanks in front of a text belong to its first sentence. -/
theorem takeFirst_blanks_append
    {blanks : List Char}
    (cs : List Char)
    (hBlank : Chars.AreBlank blanks) :
    takeFirst (blanks ++ cs) =
      (blanks ++ (takeFirst cs).1, (takeFirst cs).2) := by
  induction blanks with
  | nil => rfl
  | cons c blanks ih =>
      rw [Chars.AreBlank, List.forall_mem_cons] at hBlank
      have hEnd :
          ¬ (isTerminator c && atBreak (blanks ++ cs)) =
            true := by
        intro hEnd
        have hVisible := isBlank_of_isTerminator
          (Bool.and_eq_true_iff.mp hEnd).1
        rw [hBlank.1] at hVisible
        cases hVisible
      rw [List.cons_append, takeFirst, if_neg hEnd,
        ih hBlank.2]
      rfl

/- Blanks behind a text are no reason to cut it. -/
theorem HasInnerBreak.of_append_blanks
    {cs blanks : List Char}
    (hBreak : HasInnerBreak (cs ++ blanks))
    (hBlank : Chars.AreBlank blanks) :
    HasInnerBreak cs := by
  rcases hBreak with
    ⟨before, terminator, blank, after, hEq, hTerminator,
      hAfter, hVisible⟩
  have hWithin : ¬ after <:+ blanks := fun hSuffix =>
    hVisible fun d hd => hBlank d (hSuffix.subset hd)
  rcases List.append_eq_append_iff.mp hEq with
    ⟨between, -, hBehind⟩ | ⟨between, hFront, hBehind⟩
  · exfalso
    apply hWithin
    refine ⟨between ++ [terminator, blank], ?_⟩
    rw [hBehind, List.append_assoc]
    rfl
  · rcases between with _ | ⟨c, _ | ⟨d, between⟩⟩
    · exact absurd ⟨[terminator, blank], hBehind⟩ hWithin
    · rw [List.cons_append, List.cons.injEq] at hBehind
      exact absurd ⟨[blank], hBehind.2⟩ hWithin
    · simp only [List.cons_append, List.cons.injEq]
        at hBehind
      rcases hBehind with ⟨rfl, rfl, rfl⟩
      refine ⟨before, terminator, blank, between, hFront,
        hTerminator, hAfter, ?_⟩
      intro hBetween
      exact hVisible
        (Chars.areBlank_append_iff.mpr ⟨hBetween, hBlank⟩)

/- Blanks in front of a text change no words. -/
theorem map_words_split_blanks_append
    {blanks cs : List Char}
    (hBlank : Chars.AreBlank blanks)
    (hSome : cs ≠ []) :
    (split (blanks ++ cs)).map Chars.words =
      (split cs).map Chars.words := by
  rcases List.exists_cons_of_ne_nil hSome with
    ⟨c, rest, rfl⟩
  rcases List.exists_cons_of_ne_nil
      (List.append_ne_nil_of_right_ne_nil blanks hSome) with
    ⟨d, others, hCons⟩
  have hFirst := takeFirst_blanks_append (c :: rest) hBlank
  rw [hCons] at hFirst ⊢
  rw [split, hFirst, split, List.map_cons, List.map_cons,
    Chars.words_blanks_append _ hBlank]

/- Blanks behind a text change no words. -/
theorem map_words_split_append_blanks
    {blanks cs : List Char}
    (hBlank : Chars.AreBlank blanks)
    (hSome : cs ≠ []) :
    (split (cs ++ blanks)).map Chars.words =
      (split cs).map Chars.words := by
  fun_induction split cs with
  | case1 => exact absurd rfl hSome
  | case2 c rest ih =>
      have hWhole := takeFirst_append (c :: rest)
      have hUnbroken := takeFirst_unbroken (c :: rest)
      rcases takeFirst_isFollowedBy (c :: rest) with
        hNone | ⟨hEnds, hStarts⟩
      · rw [hNone, List.append_nil] at hWhole
        rw [hWhole] at hUnbroken
        have hLonger :
            ¬ HasInnerBreak (c :: rest ++ blanks) :=
          fun hBreak =>
            hUnbroken (hBreak.of_append_blanks hBlank)
        rw [split_eq_singleton
            (List.append_ne_nil_of_left_ne_nil hSome blanks)
            hLonger,
          hNone, hWhole, split, List.map_singleton,
          List.map_singleton,
          Chars.words_append_blanks _ hBlank]
      · have hAfter : (takeFirst (c :: rest)).2 ≠ [] := by
          rcases hStarts with ⟨d, after, hCons, -⟩
          rw [hCons]
          exact List.cons_ne_nil d after
        conv_lhs => rw [← hWhole]
        rw [List.append_assoc,
          split_append_eq (takeFirst_fst_ne_nil c rest)
            hUnbroken
            (Or.inr ⟨hEnds, hStarts.append blanks⟩),
          List.map_cons, List.map_cons, ih hAfter]

/- Trimming a text changes the words of no sentence. -/
theorem map_words_split_trim
    {cs : List Char}
    (hSome : ¬ Chars.AreBlank cs) :
    (split (Chars.trim cs)).map Chars.words =
      (split cs).map Chars.words := by
  have hTrim := Chars.trim_ne_nil hSome
  rcases Chars.exists_trim cs with
    ⟨before, after, hText, hBefore, hAfter⟩
  conv_rhs => rw [hText]
  rw [map_words_split_blanks_append hBefore
      (List.append_ne_nil_of_left_ne_nil hTrim after),
    map_words_split_append_blanks hAfter hTrim]

end Sentence

------------------------------------------------------------
-- Sentences of a String
------------------------------------------------------------

theorem map_toList_sentences (s : String) :
    (sentences s).map String.toList =
      Sentence.split s.toList := by
  simp [sentences, Function.comp_def]

/-
  The sentences of a text are the only pieces that it can be
  cut into at all places to cut and nowhere else.  Each of
  them is a text of one sentence.
-/
theorem sentences_eq_iff_areSentencesOf (s : String) :
    (∀ pieces : List String,
      sentences s = pieces ↔
        Sentence.AreSentencesOf s.toList
          (pieces.map String.toList)) ∧
      ∀ piece ∈ sentences s, sentences piece = [piece] := by
  constructor
  · intro pieces
    constructor
    · rintro rfl
      rw [map_toList_sentences]
      exact Sentence.areSentencesOf_split s.toList
    · intro hPieces
      rw [sentences, ← hPieces.eq_split, List.map_map]
      simp [Function.comp_def]
  · intro piece hPiece
    have hMem :
        piece.toList ∈ Sentence.split s.toList := by
      rw [← map_toList_sentences]
      exact List.mem_map_of_mem hPiece
    have hSentences :=
      Sentence.areSentencesOf_split s.toList
    have hAlone := Sentence.split_eq_singleton
      (hSentences.ne_nil _ hMem)
      (hSentences.unbroken _ hMem)
    rw [sentences, hAlone, List.map_singleton,
      String.ofList_toList]

end Slideshow

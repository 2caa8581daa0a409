import Slideshow.Proofs.Choice
import Slideshow.Proofs.Text.Case

/-
  This file proves that a list of styles is read back from
  their names between commas, in either case and with marks
  and blanks, and that a policy that was read picks as many
  styles as are asked for from any source of words.

  The words that stand for a whole policy come first, but
  none of them can be read as a list of styles, so that they
  never take the place of one.

  Key definitions include:
    * `Chars.IsSpelling`
    * `TransitionStyle.IsWrittenAs`
    * `TransitionPolicy.picks`

  Main results include:
    * `TransitionStyle.read_of_isWrittenAs`
    * `TransitionPolicy.mapM_read_split`
    * `TransitionPolicy.read_of_pieces`
    * `TransitionPolicy.validate_of_read`
    * `TransitionPolicy.exists_picks`
    * `TransitionPolicy.read_join_and_picks`
-/

namespace Slideshow

------------------------------------------------------------
-- Spellings
------------------------------------------------------------

namespace Chars

/- A hyphen or an underscore. -/
def IsMark (c : Char) : Prop :=
  c = '-' ∨ c = '_'

/-
  A text spells a name in lower case: it has its letters in
  either case, with any marks between them.
-/
inductive IsSpelling : List Char → List Char → Prop
| last
    {c d : Char}
    (hLetter : d.toLower = c) :
    IsSpelling [c] [d]
| next
    {c d : Char}
    {marks name text : List Char}
    (hLetter : d.toLower = c)
    (hMarks : ∀ mark ∈ marks, IsMark mark)
    (hRest : IsSpelling name text) :
    IsSpelling (c :: name) (d :: (marks ++ text))

/- A text spells its letters without any marks. -/
theorem isSpelling_lower
    {text : List Char}
    (hSome : text ≠ []) :
    IsSpelling (lower text) text := by
  induction text with
  | nil =>
      exact absurd rfl hSome
  | cons d text ih =>
      cases text with
      | nil =>
          exact .last rfl
      | cons e text =>
          exact .next rfl (List.forall_mem_nil _)
            (ih (List.cons_ne_nil e text))

/- Two spelled names with marks between them. -/
theorem IsSpelling.append
    {first second marks front back : List Char}
    (hFirst : IsSpelling first front)
    (hMarks : ∀ mark ∈ marks, IsMark mark)
    (hSecond : IsSpelling second back) :
    IsSpelling (first ++ second)
      (front ++ (marks ++ back)) := by
  induction hFirst with
  | last hLetter =>
      rw [List.singleton_append, List.singleton_append]
      exact .next hLetter hMarks hSecond
  | next hLetter hBetween _ ih =>
      rw [List.cons_append, List.cons_append,
        List.append_assoc]
      exact .next hLetter hBetween ih

theorem IsMark.not_isAlpha
    {c : Char}
    (hMark : IsMark c) :
    ¬ c.isAlpha = true := by
  rcases hMark with rfl | rfl
  · decide
  · decide

theorem keepsLetter
    {c : Char}
    (hAlpha : c.isAlpha = true) :
    (!List.contains ['-', '_'] c) = true := by
  have hNot : ¬ IsMark c := fun hMark =>
    hMark.not_isAlpha hAlpha
  simpa [IsMark] using hNot

/- Marks are removed, also after they were lower-cased. -/
theorem filter_lower_marks
    {marks : List Char}
    (hMarks : ∀ mark ∈ marks, IsMark mark) :
    (lower marks).filter
        (fun c => !List.contains ['-', '_'] c) =
      [] := by
  rw [List.filter_eq_nil_iff, lower, List.forall_mem_map]
  intro mark hMem
  have hMark := hMarks mark hMem
  rw [toLower_of_not_isAlpha hMark.not_isAlpha]
  simpa [IsMark, or_iff_not_imp_left] using hMark

section Spelling

variable {name text : List Char}
variable (hName : ∀ c ∈ name, c.isAlpha = true)

include hName

/- The name of letters that a text spells. -/
theorem IsSpelling.filter_lower
    (hSpelling : IsSpelling name text) :
    (lower text).filter
        (fun c => !List.contains ['-', '_'] c) =
      name := by
  induction hSpelling with
  | last hLetter =>
      rw [List.forall_mem_singleton] at hName
      rw [lower, List.map_singleton, hLetter,
        List.filter_cons, if_pos (keepsLetter hName),
        List.filter_nil]
  | next hLetter hMarks _ ih =>
      rw [List.forall_mem_cons] at hName
      rw [lower, List.map_cons, hLetter,
        List.filter_cons, if_pos (keepsLetter hName.1),
        List.map_append, List.filter_append, ← lower,
        filter_lower_marks hMarks, ← lower, ih hName.2,
        List.nil_append]

/- A spelling has only letters and marks. -/
theorem IsSpelling.isAlpha_or_isMark
    (hSpelling : IsSpelling name text) :
    ∀ d ∈ text, d.isAlpha = true ∨ IsMark d := by
  have hCased {c d : Char}
      (hLetter : d.toLower = c)
      (hAlpha : c.isAlpha = true) :
      d.isAlpha = true := by
    rwa [← hLetter, Char.isAlpha_toLower_eq_isAlpha]
      at hAlpha
  induction hSpelling with
  | last hLetter =>
      rw [List.forall_mem_singleton] at hName ⊢
      exact .inl (hCased hLetter hName)
  | next hLetter hMarks _ ih =>
      rw [List.forall_mem_cons] at hName ⊢
      rw [List.forall_mem_append]
      exact ⟨.inl (hCased hLetter hName.1),
        fun mark hMem => .inr (hMarks mark hMem),
        ih hName.2⟩

theorem IsSpelling.isBlank_eq_false
    (hSpelling : IsSpelling name text) :
    ∀ d ∈ text, isBlank d = false := by
  intro d hd
  rcases hSpelling.isAlpha_or_isMark hName d hd with
    hAlpha | rfl | rfl
  · exact isBlank_of_isAlpha hAlpha
  · decide
  · decide

end Spelling

end Chars

------------------------------------------------------------
-- Styles
------------------------------------------------------------

namespace TransitionStyle

variable {style : TransitionStyle}
variable {text : String}

/-
  A text writes a style: it spells the name of the style in
  a filter, with any blanks around.
-/
def IsWrittenAs
    (style : TransitionStyle)
    (text : String) : Prop :=
  ∃ before spelling after,
    text.toList = before ++ (spelling ++ after) ∧
      Chars.AreBlank before ∧ Chars.AreBlank after ∧
      Chars.IsSpelling style.filterName.toList spelling

theorem isAlpha_of_mem_filterName
    (style : TransitionStyle) :
    ∀ c ∈ style.filterName.toList, c.isAlpha = true := by
  have hAll :
      style.filterName.toList.all Char.isAlpha = true := by
    cases style <;> decide
  exact List.all_eq_true.mp hAll

theorem ofAlias?_filterName (style : TransitionStyle) :
    ofAlias? style.filterName = some style := by
  cases style <;> decide +kernel

theorem isEmpty_filterName (style : TransitionStyle) :
    style.filterName.isEmpty = false := by
  cases style <;> decide +kernel

/- A written style has no commas. -/
theorem IsWrittenAs.comma_not_mem
    (hWritten : style.IsWrittenAs text) :
    ',' ∉ text.toList := by
  rcases hWritten with
    ⟨before, spelling, after, hText, hBefore, hAfter,
      hSpelling⟩
  have hInner : ',' ∉ spelling := fun hMem => by
    rcases hSpelling.isAlpha_or_isMark
      style.isAlpha_of_mem_filterName ',' hMem with
      hAlpha | hMark | hMark
    · exact absurd hAlpha (by decide)
    · exact absurd hMark (by decide)
    · exact absurd hMark (by decide)
  rwa [hText,
    Chars.mem_between_iff _ (by decide) hBefore hAfter]

/- A written style has that style's name. -/
theorem IsWrittenAs.without_lower_trim
    (hWritten : style.IsWrittenAs text) :
    Text.without ['-', '_'] (Text.lower (Text.trim text)) =
      style.filterName := by
  rcases hWritten with
    ⟨before, spelling, after, hText, hBefore, hAfter,
      hSpelling⟩
  have hName := style.isAlpha_of_mem_filterName
  have hTrim : Chars.trim text.toList = spelling := by
    rw [hText, Chars.trim_between _ hBefore hAfter,
      Chars.trim_eq_self
        (hSpelling.isBlank_eq_false hName)]
  rw [Text.without, Text.lower, Text.trim,
    String.toList_ofList, String.toList_ofList, hTrim,
    hSpelling.filter_lower hName, String.ofList_toList]

/- A written style is read as such. -/
theorem read_of_isWrittenAs
    (hWritten : style.IsWrittenAs text) :
    read text = .ok style := by
  simp only [read, hWritten.without_lower_trim,
    isEmpty_filterName, ofAlias?_filterName]
  rfl

/- Written styles have no commas. -/
theorem comma_not_mem_of_areWritten
    {styles : List TransitionStyle}
    {texts : List String}
    (hWritten : List.Forall₂ IsWrittenAs styles texts) :
    ∀ text ∈ texts, ',' ∉ text.toList := by
  induction hWritten with
  | nil =>
      exact List.forall_mem_nil _
  | cons hFirst _ ih =>
      exact List.forall_mem_cons.mpr
        ⟨hFirst.comma_not_mem, ih⟩

/- Written styles are read as such. -/
theorem mapM_read_of_areWritten
    {styles : List TransitionStyle}
    {texts : List String}
    (hWritten : List.Forall₂ IsWrittenAs styles texts) :
    texts.mapM read = .ok styles := by
  rw [Outcome.mapM_eq_ok_iff]
  induction hWritten with
  | nil =>
      exact .nil
  | cons hFirst _ ih =>
      exact .cons (read_of_isWrittenAs hFirst) ih

theorem read_trim (s : String) :
    read (Text.trim s) = read s := by
  rw [read, Text.trim_trim, read]

theorem read_lower (s : String) :
    read (Text.lower s) = read s := by
  rw [read, Text.trim_lower, Text.lower_lower, read]

end TransitionStyle

------------------------------------------------------------
-- Policies
------------------------------------------------------------

namespace TransitionPolicy

variable {s : String}
variable {styles : List TransitionStyle}
variable {policy : TransitionPolicy}

/-
  A list of styles in lower case and trimmed is read as it
  was before, fault for fault.
-/
theorem mapM_read_split (s : String) :
    (Text.split ',' (Text.lower (Text.trim s))).mapM
        TransitionStyle.read =
      (Text.split ',' s).mapM TransitionStyle.read := by
  have hLower :
      TransitionStyle.read ∘ Text.lower =
        TransitionStyle.read := by
    funext piece
    rw [Function.comp_apply, TransitionStyle.read_lower]
  have hTrim (pieces : List String) :
      (pieces.map Text.trim).mapM TransitionStyle.read =
        pieces.mapM TransitionStyle.read := by
    have hRead :
        TransitionStyle.read ∘ Text.trim =
          TransitionStyle.read := by
      funext piece
      rw [Function.comp_apply, TransitionStyle.read_trim]
    rw [List.mapM_map, hRead]
  rw [Text.split_lower _ (by decide), List.mapM_map, hLower,
    ← hTrim, Text.map_trim_split_trim _ _ (by decide),
    hTrim]

/-
  Pieces that are styles are read as their list.  No word
  for a whole policy is in the way, since it would have to
  be a style as well.
-/
theorem read_of_pieces
    (hPieces :
      (Text.split ',' s).mapM TransitionStyle.read =
        .ok styles) :
    read s = .ok (.random styles) := by
  rw [← mapM_read_split] at hPieces
  have hNot {word : String}
      (hFault :
        ((Text.split ',' word).mapM
          TransitionStyle.read).isOk = false) :
      Text.lower (Text.trim s) ≠ word := by
    rintro rfl
    rw [hPieces] at hFault
    cases hFault
  have hBlur :
      ¬ (Text.lower (Text.trim s) = "blur" ∨
        Text.lower (Text.trim s) = "blur_dissolve" ∨
        Text.lower (Text.trim s) = "blur-dissolve") := by
    rw [not_or, not_or]
    exact ⟨hNot (by decide +kernel),
      hNot (by decide +kernel), hNot (by decide +kernel)⟩
  have hRandom : Text.lower (Text.trim s) ≠ "random" :=
    hNot (by decide +kernel)
  simp only [read, if_neg hBlur, if_neg hRandom, hPieces]
  rfl

theorem validate_random
    (hSome : styles ≠ []) :
    (random styles).validate = .ok () := by
  cases styles with
  | nil =>
      exact absurd rfl hSome
  | cons style styles =>
      rfl

/- A policy that was read can be used. -/
theorem validate_of_read
    (hRead : read s = .ok policy) :
    policy.validate = .ok () := by
  simp only [read] at hRead
  split at hRead
  · cases hRead
    rfl
  · split at hRead
    · cases hRead
      rfl
    · rw [Outcome.bind_eq_ok_iff] at hRead
      rcases hRead with ⟨styles, hPieces, hEq⟩
      cases hEq
      rw [Outcome.mapM_eq_ok_iff] at hPieces
      apply validate_random
      rintro rfl
      exact Text.split_ne_nil _ _
        (List.forall₂_nil_right_iff.mp hPieces)

------------------------------------------------------------
-- Picks
------------------------------------------------------------

variable {σ : Type}
variable [WordSource σ]

/- Pick the styles of so many boundaries. -/
def picks
    (policy : TransitionPolicy) :
    Nat → σ →
      Except TransitionFault (List TransitionStyle × σ)
  | 0, s => .ok ([], s)
  | n + 1, s => do
      let (style, s) ← policy.pick s
      let (styles, s) ← policy.picks n s
      return (style :: styles, s)

/-
  A usable policy picks as many styles as are asked for, and
  all of them suit it.
-/
theorem exists_picks
    (hValid : policy.validate = .ok ())
    (n : Nat)
    (s : σ) :
    ∃ styles s',
      policy.picks n s = .ok (styles, s') ∧
        styles.length = n ∧
        ∀ style ∈ styles, policy.Allows style := by
  induction n generalizing s with
  | zero =>
      exact ⟨[], s, rfl, rfl, List.forall_mem_nil _⟩
  | succ n ih =>
      rcases exists_pick s hValid with ⟨style, t, hPick⟩
      rcases ih t with ⟨styles, s', hPicks, hLength, hAll⟩
      refine ⟨style :: styles, s', ?_, ?_, ?_⟩
      · rw [picks, hPick]
        show Except.bind (policy.picks n t) _ = _
        rw [hPicks]
        rfl
      · rw [List.length_cons, hLength]
      · rw [List.forall_mem_cons]
        exact ⟨allows_of_pick hPick, hAll⟩

/-
  Styles that are written one after another, with commas
  between them, are read as a policy that chooses from just
  them.  Every policy that is read can be used, and from any
  source it picks any number of styles that suit it.
-/
theorem read_join_and_picks :
    (∀ (styles : List TransitionStyle)
        (texts : List String),
      styles ≠ [] →
        List.Forall₂ TransitionStyle.IsWrittenAs
          styles texts →
        read (Text.join "," texts) =
          .ok (.random styles)) ∧
      ∀ (s : String) (policy : TransitionPolicy),
        read s = .ok policy →
          policy.validate = .ok () ∧
            ∀ (σ : Type) [WordSource σ] (n : Nat) (t : σ),
              ∃ picked t',
                policy.picks n t = .ok (picked, t') ∧
                  picked.length = n ∧
                  ∀ style ∈ picked,
                    policy.Allows style := by
  constructor
  · intro styles texts hSome hWritten
    have hTexts : texts ≠ [] := by
      rintro rfl
      cases hWritten
      exact hSome rfl
    have hSplit :
        Text.split ',' (Text.join "," texts) = texts :=
      Text.split_join
        (TransitionStyle.comma_not_mem_of_areWritten
          hWritten) hTexts
    apply read_of_pieces
    rw [hSplit]
    exact TransitionStyle.mapM_read_of_areWritten hWritten
  · intro s policy hRead
    have hValid := validate_of_read hRead
    refine ⟨hValid, ?_⟩
    intro σ hSource n t
    exact exists_picks hValid n t

/-
  Two styles with a capital, marks and blanks, read as their
  list and picked from by the greatest word.
-/
theorem read_join_and_picks_two :
    List.Forall₂ TransitionStyle.IsWrittenAs
        [.wipeLeft, .fade] ["\tWIPE_-Left ", "f-adE"] ∧
      read "\tWIPE_-Left ,f-adE" =
        .ok (.random [.wipeLeft, .fade]) ∧
      ∃ picked t',
        (random [.wipeLeft, .fade]).picks 3
            (WordScript.ofList [4294967295]) =
          .ok (picked, t') ∧
          picked.length = 3 ∧
          ∀ style ∈ picked,
            (random [.wipeLeft, .fade]).Allows style := by
  have hParts {front marks back : List Char}
      (hFront : front ≠ [])
      (hMarks :
        marks.all (List.contains ['-', '_'] ·) = true)
      (hBack : back ≠ []) :
      Chars.IsSpelling
        (Chars.lower front ++ Chars.lower back)
        (front ++ (marks ++ back)) :=
    (Chars.isSpelling_lower hFront).append
      (by simpa [Chars.IsMark] using hMarks)
      (Chars.isSpelling_lower hBack)
  have hWipe :
      Chars.IsSpelling (Chars.lower _ ++ Chars.lower _)
        (['W', 'I', 'P', 'E'] ++
          (['_', '-'] ++ ['L', 'e', 'f', 't'])) :=
    hParts (by decide) (by decide) (by decide)
  have hFade :
      Chars.IsSpelling (Chars.lower _ ++ Chars.lower _)
        (['f'] ++ (['-'] ++ ['a', 'd', 'E'])) :=
    hParts (by decide) (by decide) (by decide)
  have hBlank {blanks : List Char}
      (hAll : blanks.all isBlank = true) :
      Chars.AreBlank blanks :=
    List.all_eq_true.mp hAll
  have hWritten :
      List.Forall₂ TransitionStyle.IsWrittenAs
        [.wipeLeft, .fade] ["\tWIPE_-Left ", "f-adE"] :=
    .cons
      ⟨['\t'], _, [' '], rfl, hBlank (by decide),
        hBlank (by decide), hWipe⟩
      (.cons
        ⟨[], _, [], rfl, hBlank rfl, hBlank rfl, hFade⟩
        .nil)
  rcases read_join_and_picks with ⟨hJoin, hPicks⟩
  have hRead :=
    hJoin _ _ (List.cons_ne_nil _ _) hWritten
  exact ⟨hWritten, hRead, (hPicks _ _ hRead).2 _ _ _⟩

end TransitionPolicy

end Slideshow

import Mathlib.Data.List.Basic
import Mathlib.Data.List.DropRight
import Mathlib.Data.List.TakeWhile
import Slideshow.Text.Chars

/-
  This file proves how blanks, words and trimming go
  together: which words two joined texts have, and that a
  text is its trimmed part with blanks around it.

  Key definitions include:
    * `Chars.AreBlank`
    * `Chars.EndsBlank`
    * `Chars.StartsVisible`
    * `Chars.IsTrimmed`

  Main results include:
    * `Chars.words_append_cons`
    * `Chars.words_append_of_endsBlank`
    * `Chars.mem_between_iff`
    * `Chars.isTrimmed_trim`
    * `Chars.exists_trim`
    * `Chars.trim_between`
    * `Chars.trim_trim`
-/

namespace Slideshow

------------------------------------------------------------
-- Blanks and Words
------------------------------------------------------------

namespace Chars

/- Blanks and nothing else. -/
def AreBlank (cs : List Char) : Prop :=
  ∀ c ∈ cs, isBlank c = true

/- The last character, if there is one, is blank. -/
def EndsBlank (cs : List Char) : Prop :=
  ∀ c, cs.getLast? = some c → isBlank c = true

/- There is a first character, and it is not blank. -/
def StartsVisible (cs : List Char) : Prop :=
  ∃ c rest, cs = c :: rest ∧ isBlank c = false

theorem areBlank_append_iff {cs ds : List Char} :
    AreBlank (cs ++ ds) ↔ AreBlank cs ∧ AreBlank ds :=
  List.forall_mem_append

theorem endsBlank_append_iff
    (before : List Char)
    {after : List Char}
    (hAfter : after ≠ []) :
    EndsBlank (before ++ after) ↔ EndsBlank after := by
  rw [EndsBlank, List.getLast?_append_of_ne_nil _ hAfter,
    EndsBlank]

theorem AreBlank.not_mem
    {cs : List Char}
    {c : Char}
    (hBlank : AreBlank cs)
    (hVisible : isBlank c = false) :
    c ∉ cs := by
  intro hMem
  rw [hBlank c hMem] at hVisible
  cases hVisible

/- Blanks around a text are the only characters it gains. -/
theorem mem_between_iff
    {before after : List Char}
    {c : Char}
    (cs : List Char)
    (hVisible : isBlank c = false)
    (hBefore : AreBlank before)
    (hAfter : AreBlank after) :
    c ∈ before ++ (cs ++ after) ↔ c ∈ cs := by
  rw [List.mem_append, List.mem_append]
  simp [hBefore.not_mem hVisible, hAfter.not_mem hVisible]

theorem AreBlank.endsBlank
    {cs : List Char}
    (hBlank : AreBlank cs) :
    EndsBlank cs :=
  fun c hLast => hBlank c (List.mem_of_getLast? hLast)

/- Blanks go up to the first character that is not one. -/
theorem span_blanks_append
    {blanks rest : List Char}
    (hBlank : AreBlank blanks)
    (hRest : rest = [] ∨ StartsVisible rest) :
    (blanks ++ rest).takeWhile isBlank = blanks ∧
      (blanks ++ rest).dropWhile isBlank = rest := by
  rw [List.takeWhile_append_of_pos hBlank,
    List.dropWhile_append_of_pos hBlank]
  rcases hRest with rfl | ⟨c, rest, rfl, hVisible⟩
  · exact ⟨List.append_nil blanks, rfl⟩
  · have hNot : ¬ isBlank c = true := by
      rw [hVisible]
      exact Bool.false_ne_true
    rw [List.takeWhile_cons_of_neg hNot,
      List.dropWhile_cons_of_neg hNot, List.append_nil]
    exact ⟨rfl, rfl⟩

theorem StartsVisible.append
    {cs : List Char}
    (hStarts : StartsVisible cs)
    (rest : List Char) :
    StartsVisible (cs ++ rest) := by
  rcases hStarts with ⟨c, after, rfl, hVisible⟩
  exact ⟨c, after ++ rest, rfl, hVisible⟩

/- What is left behind blanks does not start with one. -/
theorem startsVisible_dropWhile
    {cs : List Char}
    (hSome : cs.dropWhile isBlank ≠ []) :
    StartsVisible (cs.dropWhile isBlank) := by
  rcases List.exists_cons_of_ne_nil hSome with
    ⟨c, rest, hCons⟩
  have hNot := List.head?_dropWhile_not isBlank cs
  rw [hCons] at hNot
  exact ⟨c, rest, hCons, hNot⟩

theorem StartsVisible.not_areBlank
    {cs : List Char}
    (hStarts : StartsVisible cs) :
    ¬ AreBlank cs := by
  rcases hStarts with ⟨c, rest, rfl, hVisible⟩
  intro hBlank
  rw [hBlank c List.mem_cons_self] at hVisible
  cases hVisible

/- A blank parts the words before it from those behind. -/
theorem words_append_cons
    (before after : List Char)
    {c : Char}
    (hBlank : isBlank c = true) :
    words (before ++ c :: after) =
      words before ++ words after := by
  rw [words, List.splitOnP_append_cons before after hBlank,
    List.filter_append]
  rfl

theorem words_cons
    (after : List Char)
    {c : Char}
    (hBlank : isBlank c = true) :
    words (c :: after) = words after :=
  words_append_cons [] after hBlank

/- Blanks in front belong to no word. -/
theorem words_blanks_append
    {blanks : List Char}
    (after : List Char)
    (hBlank : AreBlank blanks) :
    words (blanks ++ after) = words after := by
  induction blanks with
  | nil => rfl
  | cons c blanks ih =>
      rw [List.cons_append,
        words_cons _ (hBlank c List.mem_cons_self)]
      exact ih fun d hd =>
        hBlank d (List.mem_cons_of_mem c hd)

theorem words_eq_nil
    {cs : List Char}
    (hBlank : AreBlank cs) :
    words cs = [] := by
  have hWords := words_blanks_append [] hBlank
  rwa [List.append_nil] at hWords

/- Blanks behind belong to no word. -/
theorem words_append_blanks
    (before : List Char)
    {blanks : List Char}
    (hBlank : AreBlank blanks) :
    words (before ++ blanks) = words before := by
  cases blanks with
  | nil =>
      rw [List.append_nil]
  | cons c blanks =>
      have hRest : AreBlank blanks := fun d hd =>
        hBlank d (List.mem_cons_of_mem c hd)
      rw [words_append_cons before blanks
          (hBlank c List.mem_cons_self),
        words_eq_nil hRest, List.append_nil]

/- Words part at the blanks that the first text ends in. -/
theorem words_append_of_endsBlank
    {before : List Char}
    (after : List Char)
    (hEnds : EndsBlank before) :
    words (before ++ after) =
      words before ++ words after := by
  rcases List.eq_nil_or_concat' before with
    rfl | ⟨front, c, rfl⟩
  · rfl
  · have hBlank : AreBlank [c] := by
      intro d hd
      rw [List.mem_singleton.mp hd]
      exact hEnds c List.getLast?_concat
    rw [words_append_blanks front hBlank, List.append_assoc,
      List.singleton_append,
      words_append_cons front after
        (hBlank c List.mem_cons_self)]

------------------------------------------------------------
-- Trimming
------------------------------------------------------------

/- A text without blanks on either side. -/
structure IsTrimmed (cs : List Char) : Prop where
  ne_nil : cs ≠ []
  head : ∀ c, cs.head? = some c → isBlank c = false
  last : ∀ c, cs.getLast? = some c → isBlank c = false

theorem IsTrimmed.not_endsBlank
    {cs : List Char}
    (hTrimmed : IsTrimmed cs) :
    ¬ EndsBlank cs := by
  intro hEnds
  have hLast :=
    List.getLast?_eq_some_getLast hTrimmed.ne_nil
  have hTrue := hEnds _ hLast
  rw [hTrimmed.last _ hLast] at hTrue
  cases hTrue

/- What trimming leaves is trimmed, if it leaves a text. -/
theorem isTrimmed_trim
    {cs : List Char}
    (hSome : trim cs ≠ []) :
    IsTrimmed (trim cs) where
  ne_nil := hSome
  head := by
    intro c hHead
    have hPrefix : trim cs <+: cs.dropWhile isBlank :=
      List.rdropWhile_prefix isBlank _
    have hDropped :
        (cs.dropWhile isBlank).head? = some c := by
      rcases hPrefix with ⟨after, hAfter⟩
      rw [← hAfter, List.head?_append, hHead]
      rfl
    have hNot := List.head?_dropWhile_not isBlank cs
    rw [hDropped] at hNot
    simpa using hNot
  last := by
    intro c hLast
    have hNot :=
      List.rdropWhile_last_not isBlank
        (cs.dropWhile isBlank) hSome
    rw [List.getLast?_eq_some_getLast hSome] at hLast
    cases hLast
    exact Bool.eq_false_iff.mpr hNot

/- A text is its trimmed part with blanks around it. -/
theorem exists_trim (cs : List Char) :
    ∃ before after,
      cs = before ++ (trim cs ++ after) ∧
        AreBlank before ∧ AreBlank after := by
  have hEnd :
      trim cs ++ (cs.dropWhile isBlank).rtakeWhile isBlank =
        cs.dropWhile isBlank :=
    List.rdropWhile_append_rtakeWhile
  refine ⟨cs.takeWhile isBlank,
    (cs.dropWhile isBlank).rtakeWhile isBlank, ?_, ?_, ?_⟩
  · rw [hEnd, List.takeWhile_append_dropWhile]
  · intro c hc
    exact List.mem_takeWhile_imp hc
  · intro c hc
    exact List.mem_rtakeWhile_imp hc

theorem trim_ne_nil
    {cs : List Char}
    (hSome : ¬ AreBlank cs) :
    trim cs ≠ [] := by
  intro hNone
  rcases exists_trim cs with
    ⟨before, after, hText, hBefore, hAfter⟩
  apply hSome
  rw [hText, hNone, List.nil_append]
  exact areBlank_append_iff.mpr ⟨hBefore, hAfter⟩

/- Blanks around a text are dropped with those of its own. -/
theorem trim_between
    {before after : List Char}
    (cs : List Char)
    (hBefore : AreBlank before)
    (hAfter : AreBlank after) :
    trim (before ++ (cs ++ after)) = trim cs := by
  have hReverse : ∀ c ∈ after.reverse, isBlank c = true :=
    fun c hc => hAfter c (List.mem_reverse.mp hc)
  rw [trim, trim, List.dropWhile_append_of_pos hBefore,
    List.dropWhile_append]
  by_cases hNone : cs.dropWhile isBlank = []
  · rw [hNone, List.dropWhile_eq_nil_iff.mpr hAfter]
    rfl
  · rw [if_neg (by simpa using hNone), trimEnd, trimEnd,
      List.reverse_append,
      List.dropWhile_append_of_pos hReverse]

/- A text that was trimmed is left alone. -/
theorem trim_trim (cs : List Char) :
    trim (trim cs) = trim cs := by
  rcases exists_trim cs with
    ⟨before, after, hText, hBefore, hAfter⟩
  have hTrim := trim_between (trim cs) hBefore hAfter
  rw [← hText] at hTrim
  exact hTrim.symm

end Chars

end Slideshow

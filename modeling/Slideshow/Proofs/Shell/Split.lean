import Slideshow.Command

/-
  This file proves that a shell reads a command line back as
  the words it was written from.

  A shell reads a line character by character
  (`Shell.Mode.read`).  Outside quotes blanks stand between
  words, a single quote opens a literal text that goes up to
  the next one, and a backslash makes the next character
  literal.  Quotes and backslashes are signs: they are taken
  away, but a word may consist of them alone.

  The proofs describe the marks of one written word
  (`Shell.wordMarks`) whatever follows it, so that lines are
  an induction over words.

  Key definitions include:
    * `Shell.Mode`
    * `Shell.Mark`
    * `Shell.read?`
    * `Shell.split?`

  Main results include:
    * `Shell.marks?_quoteChars`
    * `Shell.read?_line`
    * `Shell.split?_line`
    * `Command.split?_shellText`
-/

namespace Slideshow

namespace Shell

------------------------------------------------------------
-- Reading a Line
------------------------------------------------------------

/-
  Where a reader is: outside quotes, between quotes, or
  behind a backslash.
-/
inductive Mode where
| bare
| quoted
| escaped
deriving DecidableEq, Repr

/-
  What a character of a line is: one outside quotes, one
  that stands for itself, or a sign that quotes others.
-/
inductive Mark where
| bare (c : Char)
| literal (c : Char)
| sign
deriving DecidableEq, Repr

/- What the next character is, and where it leads. -/
def Mode.read (c : Char) : Mode → Mark × Mode
  | .bare =>
      if c = '\'' then (.sign, .quoted)
      else if c = '\\' then (.sign, .escaped)
      else (.bare c, .bare)
  | .quoted =>
      if c = '\'' then (.sign, .bare)
      else (.literal c, .quoted)
  | .escaped => (.literal c, .bare)

/-
  The marks of a text.  A text cannot be read if it ends
  between quotes or behind a backslash.
-/
def marks? (mode : Mode) :
    List Char → Option (List Mark)
  | [] => if mode = .bare then some [] else none
  | c :: cs =>
      (marks? (mode.read c).2 cs).map
        ((mode.read c).1 :: ·)

/- The marks of a line. -/
def read? (s : String) : Option (List Mark) :=
  marks? .bare s.toList

------------------------------------------------------------
-- Words
------------------------------------------------------------

/- A character that separates words outside quotes. -/
def isSeparator (c : Char) : Bool :=
  c == ' ' || c == '\t' || c == '\n'

namespace Mark

/- A mark that separates words. -/
def isBreak : Mark → Bool
  | bare c => isSeparator c
  | _ => false

/- What a mark adds to its word. -/
def char? : Mark → Option Char
  | bare c => some c
  | literal c => some c
  | sign => none

end Mark

/- The words of marks: what stands between separators. -/
def words (marks : List Mark) : List String :=
  ((marks.splitOnP Mark.isBreak).filter
      fun piece => !piece.isEmpty).map
    fun piece => String.ofList (piece.filterMap Mark.char?)

/- Split a line into its words. -/
def split? (s : String) : Option (List String) :=
  (read? s).map words

------------------------------------------------------------
-- Written Words
------------------------------------------------------------

/- The marks of an escaped character. -/
def escapeMarks (c : Char) : List Mark :=
  if c = '\'' then [.sign, .sign, .literal '\'', .sign]
  else [.literal c]

/- The marks of the written form of a word. -/
def wordMarks (cs : List Char) : List Mark :=
  if !cs.isEmpty && cs.all isPlain then cs.map .bare
  else .sign :: (cs.flatMap escapeMarks ++ [.sign])

/- Plain characters are no signs. -/
theorem read_bare_of_isPlain
    {c : Char}
    (hPlain : isPlain c = true) :
    Mode.bare.read c = (.bare c, .bare) := by
  have hQuote : c ≠ '\'' := by
    rintro rfl
    exact absurd hPlain (by decide)
  have hBackslash : c ≠ '\\' := by
    rintro rfl
    exact absurd hPlain (by decide)
  simp only [Mode.read, if_neg hQuote, if_neg hBackslash]

/- Plain characters separate no words. -/
theorem isSeparator_of_isPlain
    {c : Char}
    (hPlain : isPlain c = true) :
    isSeparator c = false := by
  rw [Bool.eq_false_iff]
  intro hSeparator
  simp only [isSeparator, Bool.or_eq_true, beq_iff_eq]
    at hSeparator
  rcases hSeparator with (rfl | rfl) | rfl
  · exact absurd hPlain (by decide)
  · exact absurd hPlain (by decide)
  · exact absurd hPlain (by decide)

/- Plain characters are read one by one. -/
theorem marks?_of_isPlain
    {cs : List Char}
    (hPlain : cs.all isPlain = true)
    (rest : List Char) :
    marks? .bare (cs ++ rest) =
      (marks? .bare rest).map (cs.map .bare ++ ·) := by
  induction cs with
  | nil =>
      simp
  | cons c cs ih =>
      rw [List.all_cons, Bool.and_eq_true] at hPlain
      rw [List.cons_append, marks?,
        read_bare_of_isPlain hPlain.1, ih hPlain.2,
        Option.map_map]
      rfl

/- An escaped character leaves a reader between quotes. -/
theorem marks?_escapeChar
    (c : Char)
    (rest : List Char) :
    marks? .quoted (escapeChar c ++ rest) =
      (marks? .quoted rest).map (escapeMarks c ++ ·) := by
  unfold escapeChar escapeMarks
  by_cases hQuote : c = '\''
  · rw [if_pos hQuote, if_pos hQuote]
    simp [marks?, Mode.read, Function.comp_def]
  · rw [if_neg hQuote, if_neg hQuote]
    simp [marks?, Mode.read, hQuote]

/- Escaped characters are read one by one. -/
theorem marks?_flatMap_escapeChar
    (cs rest : List Char) :
    marks? .quoted (cs.flatMap escapeChar ++ rest) =
      (marks? .quoted rest).map
        (cs.flatMap escapeMarks ++ ·) := by
  induction cs with
  | nil =>
      simp
  | cons c cs ih =>
      rw [List.flatMap_cons, List.append_assoc,
        marks?_escapeChar, ih, Option.map_map]
      simp [Function.comp_def]

/- A written word is read as its marks. -/
theorem marks?_quoteChars
    (cs rest : List Char) :
    marks? .bare (quoteChars cs ++ rest) =
      (marks? .bare rest).map (wordMarks cs ++ ·) := by
  unfold quoteChars wordMarks
  by_cases hPlain : (!cs.isEmpty && cs.all isPlain) = true
  · rw [if_pos hPlain, if_pos hPlain]
    rw [Bool.and_eq_true] at hPlain
    exact marks?_of_isPlain hPlain.2 rest
  · rw [if_neg hPlain, if_neg hPlain]
    have hOpen : Mode.bare.read '\'' = (.sign, .quoted) :=
      rfl
    have hClose : Mode.quoted.read '\'' = (.sign, .bare) :=
      rfl
    rw [List.cons_append, marks?, hOpen, List.append_assoc,
      marks?_flatMap_escapeChar, List.cons_append,
      List.nil_append, marks?, hClose]
    simp [Function.comp_def]

------------------------------------------------------------
-- The Marks of Words
------------------------------------------------------------

/- Every word has marks, also the empty one. -/
theorem wordMarks_ne_nil (cs : List Char) :
    wordMarks cs ≠ [] := by
  unfold wordMarks
  by_cases hPlain : (!cs.isEmpty && cs.all isPlain) = true
  · rw [if_pos hPlain]
    rw [Bool.and_eq_true] at hPlain
    simpa using hPlain.1
  · rw [if_neg hPlain]
    exact List.cons_ne_nil _ _

/- The marks of a word stand for its characters. -/
theorem filterMap_char?_wordMarks (cs : List Char) :
    (wordMarks cs).filterMap Mark.char? = cs := by
  have hEscape :
      ∀ c, (escapeMarks c).filterMap Mark.char? = [c] := by
    intro c
    unfold escapeMarks
    by_cases hQuote : c = '\''
    · rw [if_pos hQuote, hQuote]
      rfl
    · rw [if_neg hQuote]
      rfl
  unfold wordMarks
  by_cases hPlain : (!cs.isEmpty && cs.all isPlain) = true
  · rw [if_pos hPlain, List.filterMap_map]
    exact List.filterMap_some
  · rw [if_neg hPlain]
    simp [List.filterMap_cons, Mark.char?,
      List.filterMap_flatMap, hEscape]

/- Only plain characters stand outside quotes. -/
theorem isPlain_of_mem_wordMarks
    {c : Char}
    {cs : List Char}
    (hMem : .bare c ∈ wordMarks cs) :
    isPlain c = true := by
  have hEscape : ∀ d, .bare c ∉ escapeMarks d := by
    intro d
    unfold escapeMarks
    by_cases hQuote : d = '\'' <;> simp [hQuote]
  unfold wordMarks at hMem
  by_cases hPlain : (!cs.isEmpty && cs.all isPlain) = true
  · rw [if_pos hPlain] at hMem
    rw [Bool.and_eq_true, List.all_eq_true] at hPlain
    rcases List.mem_map.mp hMem with ⟨d, hMem, hEq⟩
    cases hEq
    exact hPlain.2 c hMem
  · rw [if_neg hPlain] at hMem
    simp [hEscape] at hMem

/- No mark of a word separates words. -/
theorem isBreak_of_mem_wordMarks
    {cs : List Char}
    {mark : Mark}
    (hMem : mark ∈ wordMarks cs) :
    mark.isBreak = false := by
  cases mark with
  | bare c =>
      exact isSeparator_of_isPlain
        (isPlain_of_mem_wordMarks hMem)
  | literal c =>
      rfl
  | sign =>
      rfl

------------------------------------------------------------
-- Written Lines
------------------------------------------------------------

/- The marks of the written form of words on one line. -/
def lineMarks (words : List (List Char)) : List Mark :=
  [.bare ' '].intercalate (words.map wordMarks)

/- A line is read as the marks of its words. -/
theorem marks?_lineChars (words : List (List Char)) :
    marks? .bare ([' '].intercalate (words.map quoteChars)) =
      some (lineMarks words) := by
  unfold lineMarks
  induction words with
  | nil =>
      rfl
  | cons word words ih =>
      cases words with
      | nil =>
          have hWord := marks?_quoteChars word []
          rw [List.append_nil] at hWord
          simp [hWord, marks?]
      | cons next words =>
          have hSpace : Mode.bare.read ' ' =
              (.bare ' ', .bare) := rfl
          simp only [List.map_cons] at ih ⊢
          rw [List.intercalate_cons_cons,
            List.intercalate_cons_cons, List.append_assoc,
            marks?_quoteChars, List.singleton_append, marks?,
            hSpace, ih]
          simp

theorem toList_line (words : List String) :
    (line words).toList =
      [' '].intercalate
        ((words.map String.toList).map quoteChars) := by
  rw [line, Text.join, String.toList_intercalate,
    List.map_map, List.map_map]
  simp [quote, Function.comp_def]

/- A line is read as the marks of its words. -/
theorem read?_line (words : List String) :
    read? (line words) =
      some (lineMarks (words.map String.toList)) := by
  rw [read?, toList_line, marks?_lineChars]

/- The marks of a line are cut between its words. -/
theorem splitOnP_lineMarks
    {words : List (List Char)}
    (hWords : words ≠ []) :
    (lineMarks words).splitOnP Mark.isBreak =
      words.map wordMarks := by
  unfold lineMarks
  induction words with
  | nil =>
      exact absurd rfl hWords
  | cons word words ih =>
      have hWord :
          ∀ mark ∈ wordMarks word, mark.isBreak = false :=
        fun mark => isBreak_of_mem_wordMarks
      cases words with
      | nil =>
          simp [List.splitOnP_eq_singleton hWord]
      | cons next words =>
          simp only [List.map_cons] at ih ⊢
          rw [List.intercalate_cons_cons, List.append_assoc,
            List.singleton_append,
            List.splitOnP_append_cons_of_forall_mem hWord
              (.bare ' ') rfl, ih (List.cons_ne_nil _ _)]

/- The words of a line are those it was written from. -/
theorem split?_line
    {words : List String}
    (hWords : words ≠ []) :
    split? (line words) = some words := by
  have hChars : words.map String.toList ≠ [] := by
    simpa using hWords
  have hKept :
      ((words.map String.toList).map wordMarks).filter
          (fun piece => !piece.isEmpty) =
        (words.map String.toList).map wordMarks := by
    rw [List.filter_eq_self]
    intro piece hPiece
    rcases List.mem_map.mp hPiece with ⟨cs, _, rfl⟩
    simpa using wordMarks_ne_nil cs
  rw [split?, read?_line, Option.map_some, Shell.words,
    splitOnP_lineMarks hChars, hKept, List.map_map,
    List.map_map]
  simp [Function.comp_def, filterMap_char?_wordMarks]

/- Outside quotes a line has spaces and plain characters. -/
theorem bare_of_mem_lineMarks
    {c : Char}
    {words : List (List Char)}
    (hMem : .bare c ∈ lineMarks words) :
    c = ' ' ∨ isPlain c = true := by
  unfold lineMarks at hMem
  induction words with
  | nil =>
      exact absurd hMem List.not_mem_nil
  | cons word words ih =>
      cases words with
      | nil =>
          exact Or.inr
            (isPlain_of_mem_wordMarks (by simpa using hMem))
      | cons next words =>
          simp only [List.map_cons] at ih hMem
          rw [List.intercalate_cons_cons, List.mem_append,
            List.mem_append] at hMem
          rcases hMem with (hMem | hMem) | hMem
          · exact Or.inr (isPlain_of_mem_wordMarks hMem)
          · rw [List.mem_singleton] at hMem
            cases hMem
            exact Or.inl rfl
          · exact ih hMem

end Shell

------------------------------------------------------------
-- Commands
------------------------------------------------------------

/-
  A shell splits the line of a command into the program and
  its arguments.  Outside quotes the line has nothing but
  the spaces between words and plain characters.
-/
theorem Command.split?_shellText (command : Command) :
    Shell.split? command.shellText =
        some (command.program :: command.args) ∧
      ∃ marks,
        Shell.read? command.shellText = some marks ∧
          ∀ c : Char, .bare c ∈ marks →
            c = ' ' ∨ Shell.isPlain c = true := by
  refine ⟨Shell.split?_line (List.cons_ne_nil _ _), _,
    Shell.read?_line _, ?_⟩
  intro c hMem
  exact Shell.bare_of_mem_lineMarks hMem

end Slideshow

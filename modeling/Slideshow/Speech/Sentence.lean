import Slideshow.Text.Basic

/-
  This file defines how a text is cut into sentences.
  Nothing is lost: the blanks behind a sentence belong to
  it.

  Key definitions include:
    * `Sentence.isTerminator`
    * `Sentence.takeFirst`
    * `Sentence.split`
-/

namespace Slideshow

namespace Sentence

/- A mark that may end a sentence. -/
def isTerminator (c : Char) : Bool :=
  c == '.' || c == '!' || c == '?'

/- The text ends here, or a blank follows. -/
def atBreak : List Char → Bool
  | [] => true
  | c :: _ => isBlank c

/-
  The first sentence and the rest.  A sentence ends with a
  terminator that stands in front of blanks or at the end,
  and includes those blanks.
-/
def takeFirst :
    List Char → List Char × List Char
  | [] => ([], [])
  | c :: rest =>
      if isTerminator c && atBreak rest then
        (c :: rest.takeWhile isBlank, rest.dropWhile isBlank)
      else
        let (sentence, after) := takeFirst rest
        (c :: sentence, after)

theorem takeFirst_append
    (cs : List Char) :
    (takeFirst cs).1 ++ (takeFirst cs).2 = cs := by
  induction cs with
  | nil => rfl
  | cons c rest ih =>
      by_cases hEnd : isTerminator c && atBreak rest
      · simp [takeFirst, hEnd]
      · simpa [takeFirst, hEnd] using ih

theorem takeFirst_fst_ne_nil
    (c : Char)
    (rest : List Char) :
    (takeFirst (c :: rest)).1 ≠ [] := by
  by_cases hEnd : isTerminator c && atBreak rest <;>
    simp [takeFirst, hEnd]

/- The rest is shorter than the text. -/
theorem takeFirst_snd_length_lt
    (c : Char)
    (rest : List Char) :
    (takeFirst (c :: rest)).2.length <
      (c :: rest).length := by
  have hAppend :=
    congrArg List.length (takeFirst_append (c :: rest))
  have hFirst := List.length_pos_iff.mpr
    (takeFirst_fst_ne_nil c rest)
  rw [List.length_append] at hAppend
  omega

/- The sentences of a text, in order. -/
def split (cs : List Char) : List (List Char) :=
  match cs with
  | [] => []
  | c :: rest =>
      (takeFirst (c :: rest)).1 ::
        split (takeFirst (c :: rest)).2
termination_by cs.length
decreasing_by exact takeFirst_snd_length_lt c rest

end Sentence

/- The sentences of a text, in order. -/
def sentences (s : String) : List String :=
  (Sentence.split s.toList).map String.ofList

end Slideshow

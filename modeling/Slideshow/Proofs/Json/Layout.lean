import Mathlib.Data.List.TakeWhile
import Mathlib.Tactic.IntervalCases
import Slideshow.Json.Document
import Slideshow.Json.Reader
import Slideshow.Proofs.Numeral

/-
  This file proves that the tokens of a JSON text are found
  again, however the text is laid out: any white space may
  stand between tokens, and none has to.

  A mark and a string end by themselves.  A word or a number
  is read as far as its characters go, so something else has
  to follow it, or the end of the text.

  Key definitions include:
    * `Json.Token.IsSpelled`
    * `Json.Token.EndsBefore`
    * `Json.IsLaidOut`

  Main results include:
    * `Json.pieces?_append`
    * `Json.Token.isSpelled_quoted`
    * `Json.Number.spelling_of_ofChars?`
    * `Json.Number.ofChars?_write`
    * `Json.tokens?_of_isLaidOut`
-/

namespace Slideshow

namespace Json

------------------------------------------------------------
-- Spelling and Layout
------------------------------------------------------------

/-
  The characters of a token: those of a mark, a string from
  quote to quote, a word, or a numeral.
-/
inductive Token.IsSpelled : Token → List Char → Prop
| mark {c : Char} {token : Token}
    (hMark : mark? c = some token) :
    IsSpelled token [c]
| text {body : List Char} {pieces : List Piece}
    (hPieces : pieces? [] body = some (pieces, [])) :
    IsSpelled (.text (Text.ofPieces pieces)) ('"' :: body)
| word {v : Value} {cs : List Char}
    (hWord : wordValue? cs = some v) :
    IsSpelled (.atom v) cs
| number {n : Number} {cs : List Char}
    (hNumber : Number.ofChars? cs = some n) :
    IsSpelled (.atom (.number n)) cs

/-
  A token ends in front of a text: no word or number goes on
  with the first character of it.
-/
def Token.EndsBefore
    (token : Token)
    (tail : List Char) : Prop :=
  match token with
  | .atom _ =>
      ∀ c ∈ tail.head?,
        isWordChar c = false ∧ isNumberChar c = false
  | _ => True

/-
  Tokens are laid out as a text, with white space in front
  of each of them and behind the last one.
-/
inductive IsLaidOut : List Token → List Char → Prop
| done {space : List Char}
    (hSpace : ∀ c ∈ space, isSpace c = true) :
    IsLaidOut [] space
| next {token : Token} {tokens : List Token}
    {space cs tail : List Char}
    (hSpace : ∀ c ∈ space, isSpace c = true)
    (hToken : token.IsSpelled cs)
    (hEnd : token.EndsBefore tail)
    (hRest : IsLaidOut tokens tail) :
    IsLaidOut (token :: tokens) (space ++ (cs ++ tail))

------------------------------------------------------------
-- Strings
------------------------------------------------------------

/- A one-letter escape is read as its character. -/
theorem pieces?_letter
    {c c' : Char}
    (hEscape : escape? c = some c')
    (done : List Piece)
    (rest : List Char) :
    pieces? done ('\\' :: c :: rest) =
      pieces? (.char c' :: done) rest := by
  have hUnicode : c ≠ 'u' := by
    rintro rfl
    cases hEscape
  rw [pieces?.eq_3]
  · rw [hEscape]
  · intro _ _ _ _ _ hEq
    exact absurd hEq hUnicode

/- A character without need for an escape is read as it is. -/
theorem pieces?_plain
    {c : Char}
    (hQuote : c ≠ '"')
    (hSlash : c ≠ '\\')
    (hPlain : ¬ c.toNat < 0x20)
    (done : List Piece)
    (rest : List Char) :
    pieces? done (c :: rest) =
      pieces? (.char c :: done) rest := by
  rw [pieces?.eq_4]
  · rw [if_neg (by simp [hPlain, hSlash])]
  · exact fun hEq => hQuote hEq
  · exact fun _ _ _ _ _ hEq => absurd hEq hSlash
  · exact fun _ _ hEq => absurd hEq hSlash

/- What follows a string does not change how it is read. -/
theorem pieces?_append
    {done pieces : List Piece}
    {body rest : List Char}
    (tail : List Char)
    (hPieces : pieces? done body = some (pieces, rest)) :
    pieces? done (body ++ tail) =
      some (pieces, rest ++ tail) := by
  fun_induction pieces? done body with
  | case1 done rest =>
      cases hPieces
      rfl
  | case2 done a b c d rest piece hPiece ih =>
      simp only [List.cons_append, pieces?, hPiece]
      exact ih hPieces
  | case4 done c rest _ c' hEscape ih =>
      rw [List.cons_append, List.cons_append,
        pieces?_letter hEscape]
      exact ih hPieces
  | case7 done c rest hQuote _ _ hPlain ih =>
      rw [not_or] at hPlain
      rw [List.cons_append,
        pieces?_plain hQuote hPlain.2 hPlain.1]
      exact ih hPieces
  | case3 | case5 | case6 | case8 =>
      cases hPieces

theorem unicodePiece?_control
    {n : Nat}
    (hControl : n < 0x20) :
    unicodePiece? '0' '0' (Document.hexDigit (n / 16))
        (Document.hexDigit (n % 16)) =
      some (.char (Char.ofNat n)) := by
  interval_cases n <;> rfl

/- The written form of a character is read as it. -/
theorem pieces?_escape
    (c : Char)
    (done : List Piece)
    (rest : List Char) :
    pieces? done (Document.escape c ++ rest) =
      pieces? (.char c :: done) rest := by
  unfold Document.escape
  split
  iterate 7
    · exact pieces?_letter rfl done rest
  · rename_i hQuote hSlash _ _ _ _ _
    by_cases hControl : c.toNat < 0x20
    · rw [if_pos hControl]
      simp only [List.cons_append, List.nil_append, pieces?,
        unicodePiece?_control hControl, Char.ofNat_toNat]
    · rw [if_neg hControl]
      exact pieces?_plain hQuote hSlash hControl done rest

/- The written form of characters is read as them. -/
theorem pieces?_flatMap_escape
    (cs : List Char)
    (done : List Piece)
    (rest : List Char) :
    pieces? done
        (cs.flatMap Document.escape ++ '"' :: rest) =
      some (done.reverse ++ cs.map .char, rest) := by
  induction cs generalizing done with
  | nil =>
      simp [pieces?]
  | cons c cs ih =>
      rw [List.flatMap_cons, List.append_assoc,
        pieces?_escape, ih]
      simp

/- Characters that are no halves make up a text. -/
theorem Text.ofPieces_map_char (cs : List Char) :
    Text.ofPieces (cs.map .char) =
      .whole (String.ofList cs) := by
  have hJoin : joinPieces? (cs.map .char) = some cs := by
    induction cs with
    | nil =>
        rfl
    | cons c cs ih =>
        rw [List.map_cons, joinPieces?, ih]
        rfl
  rw [Text.ofPieces, hJoin]

/- A text is spelled as it is written between quotes. -/
theorem Token.isSpelled_quoted (s : String) :
    (Token.text (.whole s)).IsSpelled
      (Document.quoted s).toList := by
  have hPieces :=
    pieces?_flatMap_escape s.toList [] []
  have hText := Text.ofPieces_map_char s.toList
  rw [String.ofList_toList] at hText
  rw [Document.quoted, String.toList_ofList, ← hText]
  exact .text hPieces

------------------------------------------------------------
-- Numbers
------------------------------------------------------------

theorem isNumberChar_of_isDigit
    {c : Char}
    (hDigit : Decimal.isDigit c = true) :
    isNumberChar c = true := by
  rw [isNumberChar, hDigit, Bool.true_or]

/- What stands in an exponent part may occur in a number. -/
theorem isNumberChar_of_exponent
    {cs : List Char}
    {exponent : Option (Bool × List Char)}
    (hExponent : numberExponent? cs = some exponent) :
    ∀ c ∈ cs, isNumberChar c = true := by
  cases cs with
  | nil =>
      simp
  | cons mark rest =>
      unfold numberExponent? at hExponent
      dsimp only at hExponent
      rw [Option.ite_none_right_eq_some] at hExponent
      rcases hExponent with ⟨⟨hMark, hDigits⟩, -⟩
      have hAll :
          ∀ c ∈ (Decimal.takeSign rest).2,
            isNumberChar c = true := by
        intro c hc
        unfold isDigits at hDigits
        rw [Bool.and_eq_true, List.all_eq_true] at hDigits
        exact isNumberChar_of_isDigit (hDigits.2 c hc)
      have hRest : ∀ c ∈ rest, isNumberChar c = true := by
        unfold Decimal.takeSign at hAll
        split at hAll
        · rw [List.forall_mem_cons]
          exact ⟨by decide, hAll⟩
        · rw [List.forall_mem_cons]
          exact ⟨by decide, hAll⟩
        · exact hAll
      rw [List.forall_mem_cons]
      refine ⟨?_, hRest⟩
      rcases hMark with rfl | rfl
      · decide
      · decide

namespace Number

/- The sign of a numeral, and what stands behind it. -/
def takeMinus (cs : List Char) : Bool × List Char :=
  match cs with
  | '-' :: rest => (true, rest)
  | _ => (false, cs)

/- The digits of a fraction, and what stands behind it. -/
def takeFraction
    (cs : List Char) : Option (List Char) × List Char :=
  match cs with
  | '.' :: rest =>
      (some (rest.takeWhile Decimal.isDigit),
        rest.dropWhile Decimal.isDigit)
  | _ => (none, cs)

/- A fraction has digits, if there is one. -/
def fractionFits : Option (List Char) → Bool
  | some digits => !digits.isEmpty
  | none => true

/- A numeral is read part by part. -/
theorem ofChars?_eq (cs : List Char) :
    ofChars? cs =
      if isWholePart
            ((takeMinus cs).2.takeWhile Decimal.isDigit) ∧
          fractionFits
            (takeFraction ((takeMinus cs).2.dropWhile
              Decimal.isDigit)).1 then
        (numberExponent?
            (takeFraction ((takeMinus cs).2.dropWhile
              Decimal.isDigit)).2).map fun exponent =>
          ⟨(takeMinus cs).1,
            (takeMinus cs).2.takeWhile Decimal.isDigit,
            (takeFraction ((takeMinus cs).2.dropWhile
              Decimal.isDigit)).1, exponent⟩
      else none :=
  rfl

/- What stands behind the sign is all but the sign. -/
theorem takeMinus_cases (cs : List Char) :
    cs = '-' :: (takeMinus cs).2 ∨
      cs = (takeMinus cs).2 := by
  unfold takeMinus
  split
  · exact Or.inl rfl
  · exact Or.inr rfl

/- A fraction consists of characters of a number. -/
theorem isNumberChar_of_takeFraction
    {cs : List Char}
    (hTail : ∀ c ∈ (takeFraction cs).2,
      isNumberChar c = true) :
    ∀ c ∈ cs, isNumberChar c = true := by
  unfold takeFraction at hTail
  split at hTail
  · rename_i rest
    rw [List.forall_mem_cons]
    refine ⟨by decide, ?_⟩
    rw [← List.takeWhile_append_dropWhile
      (p := Decimal.isDigit) (l := rest)]
    intro c hc
    rcases List.mem_append.mp hc with hc | hc
    · exact isNumberChar_of_isDigit
        (List.mem_takeWhile_imp hc)
    · exact hTail c hc
  · exact hTail

/-
  A numeral consists of characters of a number, and starts
  with a sign or a digit.
-/
theorem spelling_of_ofChars?
    {cs : List Char}
    {n : Number}
    (hNumber : ofChars? cs = some n) :
    (∀ c ∈ cs, isNumberChar c = true) ∧
      ∃ c rest, cs = c :: rest ∧
        (c = '-' ∨ Decimal.isDigit c = true) := by
  rw [ofChars?_eq, Option.ite_none_right_eq_some] at hNumber
  rcases hNumber with ⟨⟨hWhole, -⟩, hExponent⟩
  rcases Option.map_eq_some_iff.mp hExponent with
    ⟨exponent, hExponent, -⟩
  have hSign := takeMinus_cases cs
  generalize (takeMinus cs).2 = unsigned
    at hWhole hExponent hSign
  have hAll : ∀ c ∈ unsigned, isNumberChar c = true := by
    rw [← List.takeWhile_append_dropWhile
      (p := Decimal.isDigit) (l := unsigned)]
    intro c hc
    rcases List.mem_append.mp hc with hc | hc
    · exact isNumberChar_of_isDigit
        (List.mem_takeWhile_imp hc)
    · exact isNumberChar_of_takeFraction
        (isNumberChar_of_exponent hExponent) c hc
  cases unsigned with
  | nil =>
      cases hWhole
  | cons c rest =>
      have hDigit : Decimal.isDigit c = true := by
        by_contra hDigit
        rw [List.takeWhile_cons_of_neg hDigit] at hWhole
        cases hWhole
      rcases hSign with rfl | rfl
      · rw [List.forall_mem_cons]
        exact ⟨⟨by decide, hAll⟩, _, _, rfl, Or.inl rfl⟩
      · exact ⟨hAll, _, _, rfl, Or.inr hDigit⟩

/- A whole number is written as a numeral. -/
theorem ofChars?_write (n : Nat) :
    ofChars? (Numeral.write n).toList =
      some ⟨false, Nat.toDigits 10 n, none, none⟩ := by
  have hDigits :
      ∀ c ∈ Nat.toDigits 10 n, Decimal.isDigit c = true := by
    intro c hc
    have hDigit : c.isDigit = true :=
      Nat.isDigit_of_mem_toDigits (by omega) (by omega) hc
    rw [Decimal.isDigit, Numeral.digit?_of_isDigit hDigit]
    rfl
  have hWhole : isWholePart (Nat.toDigits 10 n) = true := by
    rcases Nat.eq_zero_or_pos n with rfl | hPositive
    · decide
    · have hHead := Numeral.head_toDigits_ne_zero hPositive
      cases hChars : Nat.toDigits 10 n with
      | nil =>
          exact absurd hChars Nat.toDigits_ne_nil
      | cons c cs =>
          rw [hChars] at hHead hDigits
          have hFirst : c ≠ '0' := by
            simpa using hHead
          unfold isWholePart
          split
          · rename_i hNil
            cases hNil
          · rfl
          · rename_i hCons
            rw [← hCons, Bool.and_eq_true, List.all_eq_true]
            cases hCons
            exact ⟨by simpa using hFirst, hDigits⟩
  have hMinus :
      takeMinus (Nat.toDigits 10 n) =
        (false, Nat.toDigits 10 n) := by
    unfold takeMinus
    split
    · rename_i rest hMinus
      have hDigit := hDigits '-' (by simp [hMinus])
      cases hDigit
    · rfl
  have hTake :
      (Nat.toDigits 10 n).takeWhile Decimal.isDigit =
        Nat.toDigits 10 n :=
    List.takeWhile_eq_self_iff.mpr hDigits
  have hDrop :
      (Nat.toDigits 10 n).dropWhile Decimal.isDigit = [] :=
    List.dropWhile_eq_nil_iff.mpr hDigits
  rw [Numeral.write, String.toList_ofList, ofChars?_eq,
    hMinus]
  simp only [hTake, hDrop]
  rw [if_pos ⟨hWhole, rfl⟩]
  rfl

end Number

------------------------------------------------------------
-- Words
------------------------------------------------------------

/- The characters that are tokens or begin a string. -/
def specials : List Char :=
  [' ', '\t', '\n', '\r', '\x7b', '\x7d', '[', ']', ',',
    ':', '"']

theorem not_mem_specials
    {p : Char → Bool}
    {c : Char}
    (hSpecials : specials.any p = false)
    (hChar : p c = true) :
    c ∉ specials := by
  intro hMem
  exact List.any_eq_false.mp hSpecials c hMem hChar

/- No other character is white space or a mark. -/
theorem isSpace_and_mark?_of_not_mem
    {c : Char}
    (hChar : c ∉ specials) :
    ¬ isSpace c = true ∧ mark? c = none ∧ c ≠ '"' := by
  simp only [specials, List.mem_cons, List.not_mem_nil,
    or_false, not_or] at hChar
  refine ⟨?_, ?_, by simp [hChar]⟩
  · simp [isSpace, hChar]
  · unfold mark?
    split
    all_goals simp_all

/- A word consists of characters of a word. -/
theorem isWordChar_of_wordValue?
    {cs : List Char}
    {v : Value}
    (hWord : wordValue? cs = some v) :
    (∀ c ∈ cs, isWordChar c = true) ∧ cs ≠ [] := by
  unfold wordValue? at hWord
  rw [← List.all_eq_true]
  split_ifs at hWord with hNull hTrue hFalse
  · rw [hNull]
    decide
  · rw [hTrue]
    decide
  · rw [hFalse]
    decide

/- A run of a class ends where its characters do. -/
theorem takeWhile_append_of_head?
    {p : Char → Bool}
    {cs tail : List Char}
    (hAll : ∀ c ∈ cs, p c = true)
    (hEnd : ∀ c ∈ tail.head?, p c = false) :
    (cs ++ tail).takeWhile p = cs ∧
      (cs ++ tail).dropWhile p = tail := by
  rw [List.takeWhile_append_of_pos hAll,
    List.dropWhile_append_of_pos hAll]
  cases tail with
  | nil =>
      simp
  | cons c tail =>
      have hStop := hEnd c rfl
      simp [hStop]

------------------------------------------------------------
-- Tokens
------------------------------------------------------------

/- White space in front of a text adds no tokens. -/
theorem tokens?_space
    {space : List Char}
    (hSpace : ∀ c ∈ space, isSpace c = true)
    (cs : List Char) :
    tokens? (space ++ cs) = tokens? cs := by
  induction space with
  | nil =>
      rfl
  | cons c space ih =>
      rw [List.forall_mem_cons] at hSpace
      rw [List.cons_append, tokens?, if_pos hSpace.1,
        ih hSpace.2]

/- A mark is a token. -/
theorem tokens?_mark
    {c : Char}
    {token : Token}
    (hMark : mark? c = some token)
    (tail : List Char) :
    tokens? (c :: tail) =
      (tokens? tail).map (token :: ·) := by
  have hSpace : ¬ isSpace c = true := by
    unfold mark? at hMark
    split at hMark
    all_goals first | decide | cases hMark
  rw [tokens?, if_neg hSpace]
  simp only [hMark]

/- A string is a token. -/
theorem tokens?_text
    {body tail : List Char}
    {pieces : List Piece}
    (hPieces : pieces? [] body = some (pieces, tail)) :
    tokens? ('"' :: body) =
      (tokens? tail).map
        (.text (Text.ofPieces pieces) :: ·) := by
  have hMark : mark? '"' = none := rfl
  rw [tokens?, if_neg (by decide)]
  simp only [hMark, if_true]
  split
  · rename_i hOther
    rw [hPieces] at hOther
    cases hOther
    rfl
  · rename_i hOther
    rw [hPieces] at hOther
    cases hOther

/- A word is a token, where it ends. -/
theorem tokens?_word
    {cs tail : List Char}
    {v : Value}
    (hWord : wordValue? cs = some v)
    (hEnd : ∀ c ∈ tail.head?, isWordChar c = false) :
    tokens? (cs ++ tail) =
      (tokens? tail).map (.atom v :: ·) := by
  rcases isWordChar_of_wordValue? hWord with ⟨hAll, hSome⟩
  cases cs with
  | nil =>
      exact absurd rfl hSome
  | cons c rest =>
      rw [List.forall_mem_cons] at hAll
      rcases isSpace_and_mark?_of_not_mem
        (not_mem_specials (by decide) hAll.1) with
        ⟨hSpace, hMark, hQuote⟩
      rcases takeWhile_append_of_head? hAll.2 hEnd with
        ⟨hTake, hDrop⟩
      rw [List.cons_append, tokens?, if_neg hSpace]
      simp only [hMark, if_neg hQuote, hAll.1, if_true,
        hTake, hDrop, hWord]

/- A digit is no character of a word. -/
theorem not_isWordChar_of_isDigit
    {c : Char}
    (hDigit : Decimal.isDigit c = true) :
    ¬ isWordChar c = true := by
  intro hWord
  rw [isWordChar, Bool.and_eq_true, decide_eq_true_eq]
    at hWord
  unfold Decimal.isDigit Numeral.digit? at hDigit
  by_cases hRange : '0' ≤ c ∧ c ≤ '9'
  · exact absurd (Char.le_trans hWord.1 hRange.2)
      (by decide)
  · rw [if_neg hRange] at hDigit
    cases hDigit

/- A numeral is a token, where it ends. -/
theorem tokens?_number
    {cs tail : List Char}
    {n : Number}
    (hNumber : Number.ofChars? cs = some n)
    (hEnd : ∀ c ∈ tail.head?, isNumberChar c = false) :
    tokens? (cs ++ tail) =
      (tokens? tail).map (.atom (.number n) :: ·) := by
  rcases Number.spelling_of_ofChars? hNumber with
    ⟨hAll, c, rest, rfl, hFirst⟩
  rw [List.forall_mem_cons] at hAll
  rcases isSpace_and_mark?_of_not_mem
    (not_mem_specials (by decide) hAll.1) with
    ⟨hSpace, hMark, hQuote⟩
  rcases takeWhile_append_of_head? hAll.2 hEnd with
    ⟨hTake, hDrop⟩
  have hWord : ¬ isWordChar c = true := by
    intro hWord
    rcases hFirst with rfl | hDigit
    · cases hWord
    · exact not_isWordChar_of_isDigit hDigit hWord
  rw [List.cons_append, tokens?, if_neg hSpace]
  simp only [hMark, if_neg hQuote, if_neg hWord, hTake,
    hDrop, hNumber]

/- Tokens that are laid out as a text are its tokens. -/
theorem tokens?_of_isLaidOut
    {tokens : List Token}
    {cs : List Char}
    (hText : IsLaidOut tokens cs) :
    tokens? cs = some tokens := by
  induction hText with
  | @done space hSpace =>
      have hNone := tokens?_space hSpace []
      rw [List.append_nil] at hNone
      rw [hNone, tokens?]
  | @next token tokens space cs tail hSpace hToken hEnd _
      ih =>
      rw [tokens?_space hSpace]
      cases hToken with
      | mark hMark =>
          rw [List.singleton_append, tokens?_mark hMark, ih]
          rfl
      | @text body pieces hPieces =>
          have hRead := pieces?_append tail hPieces
          rw [List.cons_append, tokens?_text hRead,
            List.nil_append, ih]
          rfl
      | word hWord =>
          rw [tokens?_word hWord
            fun c hc => (hEnd c hc).1, ih]
          rfl
      | number hNumber =>
          rw [tokens?_number hNumber
            fun c hc => (hEnd c hc).2, ih]
          rfl

end Json

end Slideshow

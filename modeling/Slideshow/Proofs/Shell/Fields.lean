import Slideshow.Proofs.Shell.Split
import Slideshow.Shell.State

/-
  This file proves that a script, too, reads a written line
  as the words it was written from.

  A script is read into words of pieces (`Shell.tokens?`),
  which turn into fields when it runs.  The pieces of a
  written word are characters and quotes around nothing
  (`Shell.Spells`), so that its field is the word, whatever
  the parameters of the script are.  This is how the line is
  split by itself (`Shell.split?`), too.

  Key definitions include:
    * `Shell.Spells`
    * `Shell.EndsWord`

  Main results include:
    * `Shell.fields_of_spells`
    * `Shell.exists_readWord?_quoteChars`
    * `Shell.exists_tokens?_line`
    * `Command.split?_shellText_eq_fields`
-/

namespace Slideshow

namespace Shell

------------------------------------------------------------
-- Fields
------------------------------------------------------------

/- A word without parameters has the given characters. -/
inductive Spells : Word → List Char → Prop
| nil : Spells [] []
| char {c : Char} {isQuoted : Bool} {word : Word}
    {cs : List Char}
    (hWord : Spells word cs) :
    Spells (.char c isQuoted :: word) (c :: cs)
| empty {word : Word} {cs : List Char}
    (hWord : Spells word cs) :
    Spells (.empty :: word) cs

theorem Spells.append
    {first second : Word}
    {cs ds : List Char}
    (hFirst : Spells first cs)
    (hSecond : Spells second ds) :
    Spells (first ++ second) (cs ++ ds) := by
  induction hFirst with
  | nil => exact hSecond
  | char _ ih => exact ih.char
  | empty _ ih => exact ih.empty

theorem spells_map
    (isQuoted : Bool)
    (cs : List Char) :
    Spells (cs.map (.char · isQuoted)) cs := by
  induction cs with
  | nil => exact .nil
  | cons c cs ih => exact ih.char

theorem spells_quotedWord (cs : List Char) :
    Spells (quotedWord cs) cs := by
  unfold quotedWord
  cases cs with
  | nil => exact Spells.nil.empty
  | cons c cs => exact spells_map true (c :: cs)

theorem quotedWord_ne_nil (cs : List Char) :
    quotedWord cs ≠ [] := by
  cases cs <;> simp [quotedWord]

/- A word without parameters makes a field grow. -/
theorem foldl_add_of_spells
    {word : Word}
    {cs : List Char}
    (state : State)
    (hSpells : Spells word cs)
    (finished : List (List Char))
    (grown : List Char) :
    word.foldl (Fields.add state) ⟨finished, some grown⟩ =
      ⟨finished, some (grown ++ cs)⟩ := by
  induction hSpells generalizing grown with
  | nil => simp
  | @char c _ _ cs _ ih =>
      have hGrown := ih (grown ++ [c])
      rw [List.append_assoc, List.singleton_append] at hGrown
      exact hGrown
  | empty _ ih =>
      have hGrown := ih (grown ++ [])
      rw [List.append_nil] at hGrown
      simpa [Fields.add, Fields.grow] using hGrown

/- It is one field of its own, even an empty one. -/
theorem fields_of_spells
    {word : Word}
    {cs : List Char}
    (state : State)
    (hSpells : Spells word cs)
    (hSome : word ≠ []) :
    state.fields word = [String.ofList cs] := by
  cases hSpells with
  | nil => exact absurd rfl hSome
  | @char c _ word cs hWord =>
      have hGrown :=
        foldl_add_of_spells state hWord [] [c]
      simp only [State.fields, List.foldl_cons, Fields.add,
        Fields.grow, Option.getD_none, List.nil_append,
        hGrown]
      rfl
  | @empty word cs hWord =>
      have hGrown := foldl_add_of_spells state hWord [] []
      simp only [State.fields, List.foldl_cons, Fields.add,
        Fields.grow, Option.getD_none, List.nil_append,
        hGrown]
      rfl

------------------------------------------------------------
-- Words
------------------------------------------------------------

/- A word in front of a text would end there. -/
def EndsWord (rest : List Char) : Prop :=
  ∀ c, rest.head? = some c → endsWord c = true

theorem readWord?_of_endsWord
    {fuel : Nat}
    {rest : List Char}
    (hRest : EndsWord rest)
    (hFuel : rest.length ≤ fuel) :
    readWord? fuel rest = some ([], rest) := by
  cases rest with
  | nil =>
      cases fuel <;> rfl
  | cons c rest =>
      cases fuel with
      | zero => simp at hFuel
      | succ fuel =>
          unfold readWord?
          exact if_pos (hRest c rfl)

/- Plain characters have no meaning for a script. -/
theorem not_special_of_isPlain
    {c : Char}
    (hPlain : isPlain c = true) :
    endsWord c = false ∧ c ≠ '\'' ∧ c ≠ '"' ∧ c ≠ '\\' ∧
      c ≠ '$' ∧ c ≠ '#' := by
  refine ⟨?_, ?_, ?_, ?_, ?_, ?_⟩
  · rw [Bool.eq_false_iff]
    intro hEnds
    simp only [endsWord, List.contains_iff_mem,
      List.mem_cons, List.not_mem_nil, or_false] at hEnds
    rcases hEnds with rfl | rfl | rfl | rfl | rfl | rfl |
      rfl | rfl | rfl | rfl <;>
      exact absurd hPlain (by decide)
  all_goals
    rintro rfl
    exact absurd hPlain (by decide)

theorem readWord?_of_isPlain
    {fuel : Nat}
    {cs rest : List Char}
    (hPlain : cs.all isPlain = true)
    (hRest : EndsWord rest)
    (hFuel : (cs ++ rest).length ≤ fuel) :
    readWord? fuel (cs ++ rest) =
      some (cs.map (.char · false), rest) := by
  induction cs generalizing fuel with
  | nil => exact readWord?_of_endsWord hRest hFuel
  | cons c cs ih =>
      rw [List.all_cons, Bool.and_eq_true] at hPlain
      rcases not_special_of_isPlain hPlain.1 with
        ⟨hEnds, hSingle, hDouble, hBackslash, hDollar, -⟩
      cases fuel with
      | zero => simp at hFuel
      | succ fuel =>
          have hWord :=
            ih hPlain.2 (by simpa using hFuel)
          rw [List.cons_append]
          unfold readWord?
          rw [if_neg (by simp [hEnds])]
          simp [hBackslash, hWord]

/- A literal text goes up to the next single quote. -/
theorem readSingle?_append
    {cs : List Char}
    (hText : '\'' ∉ cs)
    (rest : List Char) :
    readSingle? (cs ++ '\'' :: rest) =
      some (quotedWord cs, rest) := by
  have hTake :
      (cs ++ '\'' :: rest).takeWhile (· != '\'') = cs := by
    rw [List.takeWhile_append_of_pos]
    · simp
    · intro c hMem
      rw [bne_iff_ne]
      rintro rfl
      exact hText hMem
  simp [readSingle?, hTake]

theorem readWord?_quote
    {cs : List Char}
    (fuel : Nat)
    (hText : '\'' ∉ cs)
    (rest : List Char) :
    readWord? (fuel + 1) ('\'' :: (cs ++ '\'' :: rest)) =
      (readWord? fuel rest).map fun (word, after) =>
        (quotedWord cs ++ word, after) := by
  rw [readWord?.eq_def]
  simp only [readSingle?_append hText]
  rw [if_neg (by decide)]
  cases hWord : readWord? fuel rest <;> simp [hWord]

theorem readWord?_escaped
    (fuel : Nat)
    (rest : List Char) :
    readWord? (fuel + 1) ('\\' :: '\'' :: rest) =
      (readWord? fuel rest).map fun (word, after) =>
        (.char '\'' true :: word, after) := by
  rw [readWord?.eq_def]
  dsimp only
  rw [if_neg (by decide)]
  cases hWord : readWord? fuel rest <;> simp [hWord]

theorem flatMap_escapeChar
    {cs : List Char}
    (hText : '\'' ∉ cs) :
    cs.flatMap escapeChar = cs := by
  induction cs with
  | nil => rfl
  | cons c cs ih =>
      rw [List.mem_cons, not_or] at hText
      rw [List.flatMap_cons, ih hText.2, escapeChar,
        if_neg (Ne.symm hText.1), List.singleton_append]

/-
  A word between quotes is read piece by piece, from one
  quote that it holds to the next.
-/
theorem exists_readWord?_quoted
    {fuel : Nat}
    {rest : List Char}
    (hRest : EndsWord rest)
    (cs : List Char)
    (hFuel :
      ('\'' :: (cs.flatMap escapeChar ++
        '\'' :: rest)).length ≤ fuel) :
    ∃ word,
      readWord? fuel
          ('\'' :: (cs.flatMap escapeChar ++ '\'' :: rest)) =
        some (word, rest) ∧
        word ≠ [] ∧ Spells word cs := by
  induction hLength : cs.length using
    Nat.strongRecOn generalizing cs fuel with
  | _ n ih =>
    by_cases hQuote : '\'' ∈ cs
    · rcases List.eq_append_cons_of_mem hQuote with
        ⟨text, post, rfl, hText⟩
      have hEscape : escapeChar '\'' =
          ['\'', '\\', '\'', '\''] := rfl
      rw [List.flatMap_append, flatMap_escapeChar hText,
        List.flatMap_cons, hEscape] at hFuel ⊢
      simp only [List.append_assoc, List.cons_append,
        List.nil_append] at hFuel ⊢
      simp only [List.length_cons, List.length_append]
        at hFuel hLength
      obtain ⟨fuel, rfl⟩ : ∃ k, fuel = k + 2 :=
        ⟨fuel - 2, by omega⟩
      have hPost :
          ('\'' :: (post.flatMap escapeChar ++
            '\'' :: rest)).length ≤ fuel := by
        simp only [List.length_cons, List.length_append]
        omega
      rcases ih post.length (by omega) post hPost rfl with
        ⟨word, hWord, -, hSpells⟩
      rw [readWord?_quote _ hText, readWord?_escaped, hWord]
      exact ⟨_, rfl, by simp,
        (spells_quotedWord text).append hSpells.char⟩
    · rw [flatMap_escapeChar hQuote] at hFuel ⊢
      simp only [List.length_cons, List.length_append]
        at hFuel
      obtain ⟨fuel, rfl⟩ : ∃ k, fuel = k + 1 :=
        ⟨fuel - 1, by omega⟩
      have hWord : readWord? fuel rest = some ([], rest) :=
        readWord?_of_endsWord hRest (by omega)
      rw [readWord?_quote _ hQuote, hWord]
      exact ⟨_, rfl, by simp [quotedWord_ne_nil],
        by simpa using spells_quotedWord cs⟩

/- A written word is read up to its end. -/
theorem exists_readWord?_quoteChars
    {fuel : Nat}
    {rest : List Char}
    (hRest : EndsWord rest)
    (cs : List Char)
    (hFuel : (quoteChars cs ++ rest).length ≤ fuel) :
    ∃ word,
      readWord? fuel (quoteChars cs ++ rest) =
        some (word, rest) ∧
        word ≠ [] ∧ Spells word cs := by
  unfold quoteChars at hFuel ⊢
  by_cases hPlain : (!cs.isEmpty && cs.all isPlain) = true
  · rw [if_pos hPlain] at hFuel ⊢
    rw [Bool.and_eq_true] at hPlain
    exact ⟨_, readWord?_of_isPlain hPlain.2 hRest hFuel,
      by simpa using hPlain.1, spells_map false cs⟩
  · rw [if_neg hPlain] at hFuel ⊢
    simp only [List.cons_append, List.append_assoc,
      List.nil_append] at hFuel ⊢
    exact exists_readWord?_quoted hRest cs hFuel

------------------------------------------------------------
-- Lines
------------------------------------------------------------

/- What stands behind a word of a line. -/
def IsBehindWord (rest : List Char) : Prop :=
  rest = [] ∨ ∃ next, rest = ' ' :: next

theorem IsBehindWord.endsWord
    {rest : List Char}
    (hRest : IsBehindWord rest) :
    EndsWord rest := by
  rintro c hHead
  rcases hRest with rfl | ⟨next, rfl⟩
  · cases hHead
  · cases hHead
    rfl

theorem readRedirect?_eq_none
    {c : Char}
    {rest : List Char}
    (hOutput : c ≠ '>')
    (hInput : c ≠ '<')
    (hNext : c.isDigit = true → rest.head? ≠ some '>') :
    readRedirect? (c :: rest) = none := by
  unfold readRedirect?
  split
  · rename_i hEq
    exact absurd (List.cons.inj hEq).1 hOutput
  · rename_i hEq
    exact absurd (List.cons.inj hEq).1 hOutput
  · rename_i hEq
    exact absurd (List.cons.inj hEq).1 hOutput
  · rename_i hEq
    exact absurd (List.cons.inj hEq).1 hInput
  · rename_i hEq
    rcases List.cons.inj hEq with ⟨rfl, rfl⟩
    rw [if_neg (fun hDigit => hNext hDigit rfl)]
  · rfl

/- A written word does not look like anything else. -/
theorem exists_cons_quoteChars (cs : List Char) :
    ∃ c tail,
      quoteChars cs = c :: tail ∧
        endsWord c = false ∧ c ≠ '\\' ∧ c ≠ '#' ∧
        ∀ rest, IsBehindWord rest →
          readRedirect? (c :: (tail ++ rest)) = none := by
  unfold quoteChars
  by_cases hPlain : (!cs.isEmpty && cs.all isPlain) = true
  · rw [if_pos hPlain]
    rw [Bool.and_eq_true, Bool.not_eq_true',
      List.isEmpty_eq_false_iff, List.all_eq_true] at hPlain
    rcases List.exists_cons_of_ne_nil hPlain.1 with
      ⟨c, tail, rfl⟩
    rcases List.forall_mem_cons.mp hPlain.2 with
      ⟨hFirst, hTail⟩
    rcases not_special_of_isPlain hFirst with
      ⟨hEnds, -, -, hBackslash, -, hHash⟩
    refine ⟨c, tail, rfl, hEnds, hBackslash, hHash, ?_⟩
    intro rest hRest
    apply readRedirect?_eq_none
    · rintro rfl
      cases hEnds
    · rintro rfl
      cases hEnds
    · intro _ hHead
      cases tail with
      | nil =>
          rcases hRest with rfl | ⟨next, rfl⟩ <;> cases hHead
      | cons d tail =>
          cases hHead
          exact absurd (hTail '>' (by simp)) (by decide)
  · rw [if_neg hPlain]
    refine ⟨_, _, rfl, by decide, by decide, by decide, ?_⟩
    intro rest _
    exact readRedirect?_eq_none (by decide) (by decide) nofun

theorem tokensFrom?_word
    {c : Char}
    {rest : List Char}
    (fuel : Nat)
    (hRedirect : readRedirect? (c :: rest) = none)
    (hEnds : endsWord c = false)
    (hBackslash : c ≠ '\\')
    (hHash : c ≠ '#') :
    tokensFrom? (fuel + 1) (c :: rest) =
      (readWord? fuel (c :: rest)).bind fun (word, rest) =>
        (tokensFrom? fuel rest).map (.word word :: ·) := by
  have hOther (d : Char) (hEnd : endsWord d = true) :
      c ≠ d := by
    rintro rfl
    rw [hEnds] at hEnd
    cases hEnd
  have hSpace := hOther ' ' rfl
  have hTab := hOther '\t' rfl
  have hLine := hOther '\n' rfl
  have hBoth := hOther '&' rfl
  have hEither := hOther '|' rfl
  have hSeparator := hOther ';' rfl
  rw [tokensFrom?.eq_def]
  simp only [hRedirect]
  -- Only the last case is left: the character is a sign in
  -- all others.
  split <;> try contradiction
  rw [if_neg (by simp [hEnds])]
  simp only [Option.map_eq_bind]
  rfl

theorem tokensFrom?_space
    (fuel : Nat)
    (rest : List Char) :
    tokensFrom? (fuel + 1) (' ' :: rest) =
      tokensFrom? fuel rest := by
  have hRedirect : readRedirect? (' ' :: rest) = none :=
    readRedirect?_eq_none (by decide) (by decide) nofun
  rw [tokensFrom?.eq_def]
  simp only [hRedirect]

/- A written word becomes a token. -/
theorem exists_tokensFrom?_quoteChars
    {fuel : Nat}
    {rest : List Char}
    (hRest : IsBehindWord rest)
    (cs : List Char)
    (hFuel : (quoteChars cs ++ rest).length ≤ fuel) :
    ∃ word,
      tokensFrom? (fuel + 1) (quoteChars cs ++ rest) =
          (tokensFrom? fuel rest).map (.word word :: ·) ∧
        word ≠ [] ∧ Spells word cs := by
  rcases exists_readWord?_quoteChars hRest.endsWord cs hFuel
    with ⟨word, hWord, hSome, hSpells⟩
  rcases exists_cons_quoteChars cs with
    ⟨c, tail, hChars, hEnds, hBackslash, hHash, hRedirect⟩
  rw [hChars, List.cons_append] at hWord ⊢
  rw [tokensFrom?_word fuel (hRedirect rest hRest) hEnds
    hBackslash hHash, hWord]
  exact ⟨word, rfl, hSome, hSpells⟩

/-
  The tokens of a line are its words.  The induction is on
  the words; the fuel left is more than the characters are.
-/
theorem exists_tokensFrom?_lineChars
    {fuel : Nat}
    (words : List (List Char))
    (hFuel :
      ([' '].intercalate (words.map quoteChars)).length <
        fuel) :
    ∃ read : List Word,
      tokensFrom? fuel
          ([' '].intercalate (words.map quoteChars)) =
        some (read.map .word) ∧
        ∀ state : State,
          read.map state.fields =
            words.map fun cs => [String.ofList cs] := by
  induction words generalizing fuel with
  | nil =>
      cases fuel <;> exact ⟨[], rfl, fun _ => rfl⟩
  | cons cs words ih =>
      obtain ⟨fuel, rfl⟩ : ∃ k, fuel = k + 1 :=
        ⟨fuel - 1, by omega⟩
      cases words with
      | nil =>
          simp only [List.map_cons, List.map_nil,
            List.intercalate_singleton] at hFuel ⊢
          have hLength :
              (quoteChars cs ++ []).length ≤ fuel := by
            rw [List.append_nil]
            omega
          rcases exists_tokensFrom?_quoteChars (.inl rfl) cs
              hLength with
            ⟨word, hWord, hSome, hSpells⟩
          rw [List.append_nil] at hWord
          refine ⟨[word], ?_, fun state => ?_⟩
          · rw [hWord]
            cases fuel <;> rfl
          · simp [fields_of_spells state hSpells hSome]
      | cons next words =>
          simp only [List.map_cons] at ih hFuel ⊢
          rw [List.intercalate_cons_cons, List.append_assoc,
            List.singleton_append] at hFuel ⊢
          rcases exists_cons_quoteChars cs with
            ⟨c, tail, hChars, -⟩
          have hStart : 1 ≤ (quoteChars cs).length := by
            simp [hChars]
          simp only [List.length_append, List.length_cons]
            at hFuel
          rcases exists_tokensFrom?_quoteChars
              (.inr ⟨_, rfl⟩) cs
              (by
                simp only [List.length_append,
                  List.length_cons]
                exact Nat.le_of_lt_succ hFuel) with
            ⟨word, hWord, hSome, hSpells⟩
          obtain ⟨fuel, rfl⟩ : ∃ k, fuel = k + 1 :=
            ⟨fuel - 1, by omega⟩
          have hWords :
              ([' '].intercalate
                (quoteChars next ::
                  words.map quoteChars)).length < fuel := by
            omega
          rcases ih hWords with ⟨read, hRead, hFields⟩
          refine ⟨word :: read, ?_, fun state => ?_⟩
          · rw [hWord, tokensFrom?_space, hRead]
            rfl
          · rw [List.map_cons, hFields state,
              fields_of_spells state hSpells hSome]

/-
  The tokens of a line are its words, and the fields of each
  are the word alone, whatever the state of the script is.
-/
theorem exists_tokens?_line (words : List String) :
    ∃ read : List Word,
      tokens? (line words).toList = some (read.map .word) ∧
        ∀ state : State,
          read.map state.fields =
            words.map fun word => [word] := by
  rcases exists_tokensFrom?_lineChars
      (words.map String.toList) (Nat.lt_add_of_pos_right
        (k := 2) (by omega)) with
    ⟨read, hRead, hFields⟩
  rw [toList_line, tokens?]
  refine ⟨read, hRead, fun state => ?_⟩
  rw [hFields state, List.map_map]
  simp

/- A line is split like a script that holds it. -/
theorem split?_line_eq_fields
    {words : List String}
    (hWords : words ≠ []) :
    ∃ read : List Word,
      tokens? (line words).toList = some (read.map .word) ∧
        ∀ state : State,
          split? (line words) =
            some (read.flatMap state.fields) := by
  rcases exists_tokens?_line words with
    ⟨read, hRead, hFields⟩
  refine ⟨read, hRead, fun state => ?_⟩
  rw [split?_line hWords, List.flatMap_def, hFields state,
    ← List.flatMap_def, List.flatMap_singleton']

end Shell

/-
  A script that holds the line of a command has the words of
  the command as fields, as the line has when it is split.
-/
theorem Command.split?_shellText_eq_fields
    (command : Command) :
    ∃ read : List Shell.Word,
      Shell.tokens? command.shellText.toList =
          some (read.map .word) ∧
        ∀ state : Shell.State,
          read.flatMap state.fields =
              command.program :: command.args ∧
            Shell.split? command.shellText =
              some (read.flatMap state.fields) := by
  have hWords := List.cons_ne_nil command.program command.args
  rcases Shell.split?_line_eq_fields hWords with
    ⟨read, hRead, hSplit⟩
  refine ⟨read, hRead, fun state => ⟨?_, hSplit state⟩⟩
  exact Option.some.inj
    ((hSplit state).symm.trans (Shell.split?_line hWords))

end Slideshow

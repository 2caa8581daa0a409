import Slideshow.Proofs.Speech.Grouping
import Slideshow.Proofs.Speech.Track
import Slideshow.Proofs.Text.Utf8

/-
  This file proves which of the numbers that the chunks of a
  narration are counted with fit into words.

  The chunks are counted a second time with additions and a
  subtraction that fail where the result is no word
  (`Chunk.gather?`).  The words of the open chunk and of the
  sentences ahead never exceed those of the whole text, so
  that no count within the loop fails, whatever the bounds
  are.  Settings that can be used have a lower bound.  Only
  the upper bound may be no word, and then there is a panic
  before any word is counted.

  Key definitions include:
    * `Word.add?`
    * `Word.sub?`
    * `Chunk.gather?`
    * `SpeechTrack.countedChunks?`

  Main results include:
    * `Chunk.wordCount_le_length`
    * `Chunk.gather?_eq_some`
    * `SpeechTrack.countedChunks?_eq_some_or_panics`
-/

namespace Slideshow

------------------------------------------------------------
-- Words
------------------------------------------------------------

namespace Word

/- A number as a word, if it is one. -/
def ofNat? (n : Nat) : Option UInt64 :=
  if n < UInt64.size then some n.toUInt64 else none

/- The sum of two words, if it is a word. -/
def add? (a b : UInt64) : Option UInt64 :=
  ofNat? (a.toNat + b.toNat)

/- The difference of two words, if it is a word. -/
def sub? (a b : UInt64) : Option UInt64 :=
  if b.toNat ≤ a.toNat then some (a - b) else none

theorem exists_ofNat?
    {n : Nat}
    (hLt : n < 2 ^ 64) :
    ∃ word, ofNat? n = some word ∧ word.toNat = n :=
  ⟨n.toUInt64, if_pos hLt, UInt64.toNat_ofNat_of_lt' hLt⟩

theorem add?_eq_some
    {a b : UInt64}
    (hLt : a.toNat + b.toNat < 2 ^ 64) :
    add? a b = some (a + b) := by
  have hSum : (a.toNat + b.toNat).toUInt64 = a + b := by
    rw [Nat.toUInt64, UInt64.ofNat_add, UInt64.ofNat_toNat,
      UInt64.ofNat_toNat]
  rw [← hSum]
  exact if_pos hLt

theorem add?_eq_none
    {a b : UInt64}
    (hLe : 2 ^ 64 ≤ a.toNat + b.toNat) :
    add? a b = none :=
  if_neg (not_lt.mpr hLe)

theorem exists_sub?
    {a b : UInt64}
    (hLe : b.toNat ≤ a.toNat) :
    ∃ word,
      sub? a b = some word ∧
        word.toNat = a.toNat - b.toNat :=
  ⟨a - b, if_pos hLe,
    UInt64.toNat_sub_of_le a b (UInt64.le_iff_toNat_le.mpr hLe)⟩

end Word

------------------------------------------------------------
-- Counted Chunks
------------------------------------------------------------

namespace Chunk

/-
  Gather sentences as before, with the numbers in words that
  may not overflow.
-/
def gather?
    (low high : UInt64)
    (opened : List Char)
    (words : UInt64) :
    List (List Char) → Option (List (List Char))
  | [] => some (close opened)
  | sentence :: rest => do
      let more ← Word.ofNat? (wordCount sentence)
      let total ← Word.add? words more
      if total ≤ high then
        if low ≤ total then
          let chunks ← gather? low high [] 0 rest
          return close (opened ++ sentence) ++ chunks
        else
          gather? low high (opened ++ sentence) total rest
      else
        let chunks ← gather? low high sentence more rest
        return close opened ++ chunks

/- A text has no more words than characters. -/
theorem wordCount_le_length (cs : List Char) :
    wordCount cs ≤ cs.length := by
  induction cs with
  | nil =>
      exact Nat.zero_le _
  | cons c cs ih =>
      rw [List.length_cons]
      by_cases hBlank : isBlank c = true
      · rw [wordCount, Chars.words_cons cs hBlank]
        exact Nat.le_succ_of_le ih
      · -- the first word is longer or there is one more
        have hPieces :
            (c :: cs).splitOnP isBlank =
              (cs.splitOnP isBlank).modifyHead (c :: ·) := by
          rw [List.splitOnP_cons_eq_if_modifyHead,
            if_neg hBlank]
        have hMore :
            wordCount (c :: cs) ≤ wordCount cs + 1 := by
          rw [wordCount, wordCount, Chars.words, Chars.words,
            hPieces]
          cases cs.splitOnP isBlank with
          | nil =>
              exact Nat.zero_le _
          | cons piece pieces =>
              rw [List.modifyHead_cons,
                List.filter_cons_of_pos rfl,
                List.length_cons, List.filter_cons]
              split_ifs with hPiece
              · exact Nat.succ_le_succ (Nat.le_succ _)
              · exact le_refl _
        exact hMore.trans (Nat.succ_le_succ ih)

/-
  Counting does not fail if all words that are still to be
  counted fit.  The open chunk and the sentences ahead never
  have more words than before.
-/
theorem gather?_eq_some
    (low high : UInt64)
    (opened : List Char)
    (words : UInt64)
    (sentences : List (List Char))
    (hFits :
      words.toNat + (sentences.map wordCount).sum < 2 ^ 64) :
    gather? low high opened words sentences =
      some (gather ⟨low.toNat, high.toNat⟩ opened
        words.toNat sentences) := by
  induction sentences generalizing opened words with
  | nil =>
      rfl
  | cons sentence rest ih =>
      rw [List.map_cons, List.sum_cons] at hFits
      have hMoreFits : wordCount sentence < 2 ^ 64 := by
        omega
      rcases Word.exists_ofNat? hMoreFits with
        ⟨more, hMore, hMoreNat⟩
      have hTotalFits :
          words.toNat + more.toNat < 2 ^ 64 := by
        omega
      rcases Word.exists_ofNat? hTotalFits with
        ⟨total, hTotal, hTotalNat⟩
      rw [← Word.add?] at hTotal
      rw [hMoreNat] at hTotalNat
      have hRest :
          (0 : UInt64).toNat + (rest.map wordCount).sum <
            2 ^ 64 := by
        rw [UInt64.toNat_zero]
        omega
      rw [gather?, hMore, gather]
      simp only [Option.bind_eq_bind, Option.bind_some,
        hTotal, UInt64.le_iff_toNat_le, hTotalNat]
      by_cases hHigh :
          words.toNat + wordCount sentence ≤ high.toNat
      · rw [if_pos hHigh, if_pos hHigh]
        by_cases hLow :
            low.toNat ≤ words.toNat + wordCount sentence
        · rw [if_pos hLow, if_pos hLow, ih [] 0 hRest]
          rfl
        · rw [if_neg hLow, if_neg hLow,
            ih (opened ++ sentence) total (by omega),
            hTotalNat]
      · rw [if_neg hHigh, if_neg hHigh,
          ih sentence more (by omega), hMoreNat]
        rfl

/- Gather the sentences of a text in the same way. -/
def split?
    (low high : UInt64)
    (cs : List Char) : Option (List (List Char)) :=
  gather? low high [] 0 (Sentence.split cs)

/-
  Counting the words of a text whose characters can be
  counted does not fail.
-/
theorem split?_eq_some
    (low high : UInt64)
    {cs : List Char}
    (hFits : cs.length < 2 ^ 64) :
    split? low high cs =
      some (split ⟨low.toNat, high.toNat⟩ cs) := by
  have hWords :
      (0 : UInt64).toNat +
          ((Sentence.split cs).map wordCount).sum <
        2 ^ 64 := by
    rw [UInt64.toNat_zero, Nat.zero_add]
    calc ((Sentence.split cs).map wordCount).sum
        = wordCount cs := sum_lengths cs
      _ ≤ cs.length := wordCount_le_length cs
      _ < 2 ^ 64 := hFits
  exact gather?_eq_some low high [] 0 _ hWords

end Chunk

------------------------------------------------------------
-- Narrations
------------------------------------------------------------

/- Settings that can be used have a lower bound. -/
theorem SpeechConfig.tolerance_lt_of_validate
    {config : SpeechConfig}
    (hValid : config.validate = .ok ()) :
    config.chunkTolerance.toNat <
      config.chunkWords.toNat := by
  unfold validate at hValid
  split at hValid
  · cases hValid
  · split at hValid
    · cases hValid
    · rename_i hNot
      rwa [UInt64.le_iff_toNat_le, not_le] at hNot

namespace SpeechTrack

/-
  The chunks of a text under the settings, with all numbers
  in words that may not overflow.
-/
def countedChunks?
    (config : SpeechConfig)
    (text : String) : Option (List String) := do
  let low ←
    Word.sub? config.chunkWords config.chunkTolerance
  let high ←
    Word.add? config.chunkWords config.chunkTolerance
  (Chunk.split? low high text.toList).map
    (·.map String.ofList)

section Counted

variable {config : SpeechConfig}
variable {text : String}

/-
  For settings that can be used and a text whose bytes can
  be counted in a word, one number may be no word, the sum
  of the target and the tolerance.  The difference of both
  is a word, and so are all counts of the loop, whatever the
  upper bound.  If the sum is a word, the chunks of the text
  are counted without overflow.  If it is not, there is a
  panic, and no chunk is spoken.
-/
theorem countedChunks?_eq_some_or_panics
    (hValid : config.validate = .ok ())
    (hText : (Utf8.encode text).length < 2 ^ 64) :
    let target := config.chunkWords.toNat
    let tolerance := config.chunkTolerance.toNat
    (∃ low,
        Word.sub? config.chunkWords config.chunkTolerance =
            some low ∧
          low.toNat = target - tolerance ∧
          0 < low.toNat ∧
          ∀ high : UInt64,
            Chunk.split? low high text.toList =
              some (Chunk.split
                ⟨target - tolerance, high.toNat⟩
                text.toList)) ∧
      (target + tolerance < 2 ^ 64 →
        ∃ chunks,
          countedChunks? config text = some chunks ∧
            chunksOf config text = .ok chunks) ∧
      (2 ^ 64 ≤ target + tolerance →
        countedChunks? config text = none ∧
          chunksOf config text = .error .addOverflow ∧
          ∀ {σ : Type} (synthesizer : Synthesizer σ)
            (s : σ),
            synthesize synthesizer text config s =
              (.error .addOverflow, s)) := by
  intro target tolerance
  have hLess := config.tolerance_lt_of_validate hValid
  have hFits : text.toList.length < 2 ^ 64 := by
    rw [String.length_toList]
    exact (Utf8.length_le_length_encode text).trans_lt hText
  rcases Word.exists_sub? hLess.le with
    ⟨low, hSub, hLow⟩
  have hChunks (high : UInt64) :
      Chunk.split? low high text.toList =
        some (Chunk.split ⟨target - tolerance, high.toNat⟩
          text.toList) := by
    rw [Chunk.split?_eq_some _ _ hFits, hLow]
  refine ⟨⟨low, hSub, hLow, ?_, hChunks⟩, ?_, ?_⟩
  · omega
  · intro hSum
    have hAdd := Word.add?_eq_some hSum
    have hHigh :
        (config.chunkWords + config.chunkTolerance).toNat =
          target + tolerance := by
      rw [UInt64.toNat_add, Nat.mod_eq_of_lt hSum]
    refine ⟨_, ?_, speechChunks_eq_ok_iff.mpr ⟨hSum, rfl⟩⟩
    rw [countedChunks?, hSub, hAdd]
    simp only [Option.bind_eq_bind, Option.bind_some,
      hChunks, hHigh]
    rfl
  · intro hLarge
    have hNone := Word.add?_eq_none hLarge
    have hPanic := speechChunks_eq_error text hLarge
    refine ⟨?_, hPanic, ?_⟩
    · rw [countedChunks?, hSub, hNone]
      rfl
    · intro σ synthesizer s
      simp only [synthesize, hValid, hPanic]

end Counted

end SpeechTrack

/- The bounds of settings that can be used are a panic. -/
theorem SpeechTrack.countedChunks?_eq_some_or_panics_greatest :
    SpeechConfig.greatest.validate = .ok () ∧
      (Utf8.encode "a. b.").length < 2 ^ 64 ∧
      2 ^ 64 ≤
        SpeechConfig.greatest.chunkWords.toNat +
          SpeechConfig.greatest.chunkTolerance.toNat ∧
      countedChunks? SpeechConfig.greatest "a. b." = none ∧
      chunksOf SpeechConfig.greatest "a. b." =
        .error .addOverflow := by
  have hValid :
      SpeechConfig.greatest.validate = .ok () := by
    decide
  have hText : (Utf8.encode "a. b.").length < 2 ^ 64 := by
    decide
  have hLarge :
      2 ^ 64 ≤
        SpeechConfig.greatest.chunkWords.toNat +
          SpeechConfig.greatest.chunkTolerance.toNat := by
    decide
  rcases (countedChunks?_eq_some_or_panics hValid
    hText).2.2 hLarge with ⟨hNone, hPanic, -⟩
  exact ⟨hValid, hText, hLarge, hNone, hPanic⟩

/-
  Settings that can be used overflow before a text of two
  words is cut, which fits into one chunk.
-/
theorem SpeechTrack.chunksOf_panics :
    SpeechConfig.greatest.validate = .ok () ∧
      Word.add? SpeechConfig.greatest.chunkWords
          SpeechConfig.greatest.chunkTolerance =
        none ∧
      chunksOf SpeechConfig.greatest "a. b." =
        .error .addOverflow ∧
      chunksWithin
          (.around SpeechConfig.greatest.chunkWords
            SpeechConfig.greatest.chunkTolerance)
          "a. b." =
        ["a. b."] := by
  refine ⟨?_, ?_, ?_, ?_⟩
  all_goals decide +kernel

end Slideshow

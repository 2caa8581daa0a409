import Mathlib.Algebra.Group.Nat.Defs
import Slideshow.Proofs.Speech.Sentence
import Slideshow.Speech.Chunk

/-
  This file proves that the chunks of a text keep all of it
  but blanks, in order, whatever the bounds on their length.

  A text is cut into chunks (`Chunk.IsCutInto`) if it is the
  chunks in order with blanks alone around them.  The loop
  keeps this for the open chunk and the sentences ahead
  (`Chunk.gather_isCutInto`).  It relies on sentences that
  end in blanks, apart from the last one, so that a chunk is
  never closed within a word.

  Key definitions include:
    * `Chunk.IsCutInto`

  Main results include:
    * `Chunk.gather_isCutInto`
    * `Chunk.IsCutInto.words_eq`
    * `speechChunks_eq_ok_iff`
    * `speechChunks_keeps`
-/

namespace Slideshow

------------------------------------------------------------
-- Chunks
------------------------------------------------------------

namespace Chunk

/-
  A text is made of chunks in order, each trimmed, with
  blanks alone in front of them, between them and behind
  them.  No chunk ends within a word.
-/
inductive IsCutInto :
    List Char → List (List Char) → Prop where
| blanks
    {gap : List Char}
    (hGap : Chars.AreBlank gap) :
    IsCutInto gap []
| chunk
    {gap chunk rest : List Char}
    {chunks : List (List Char)}
    (hGap : Chars.AreBlank gap)
    (hChunk : Chars.IsTrimmed chunk)
    (hBreak : Sentence.atBreak rest = true)
    (hRest : IsCutInto rest chunks) :
    IsCutInto (gap ++ (chunk ++ rest)) (chunk :: chunks)

namespace IsCutInto

variable {text : List Char}
variable {chunks : List (List Char)}

/- Blanks in front do not change the chunks. -/
theorem blanks_append
    {before : List Char}
    (hBlank : Chars.AreBlank before)
    (hCut : IsCutInto text chunks) :
    IsCutInto (before ++ text) chunks := by
  have hBoth {gap : List Char}
      (hGap : Chars.AreBlank gap) :
      Chars.AreBlank (before ++ gap) :=
    Chars.areBlank_append_iff.mpr ⟨hBlank, hGap⟩
  cases hCut with
  | blanks hGap =>
      exact .blanks (hBoth hGap)
  | chunk hGap hChunk hBreak hRest =>
      rw [← List.append_assoc]
      exact .chunk (hBoth hGap) hChunk hBreak hRest

/-
  A closed text goes in front of chunks, if a blank or the
  end of the whole text is behind it.
-/
theorem close_append
    {opened : List Char}
    (hEnds : text = [] ∨ Chars.EndsBlank opened)
    (hCut : IsCutInto text chunks) :
    IsCutInto (opened ++ text) (close opened ++ chunks) := by
  rcases Chars.exists_trim opened with
    ⟨before, after, hOpened, hBefore, hAfter⟩
  by_cases hNone : Chars.trim opened = []
  · rw [hNone, List.nil_append] at hOpened
    rw [close, hNone, hOpened, List.append_assoc]
    exact blanks_append hBefore (blanks_append hAfter hCut)
  · have hTrimmed := Chars.isTrimmed_trim hNone
    have hBreak :
        Sentence.atBreak (after ++ text) = true := by
      cases after with
      | nil =>
          rcases hEnds with rfl | hEnds
          · rfl
          · rw [hOpened, List.append_nil,
              Chars.endsBlank_append_iff before hNone]
              at hEnds
            exact absurd hEnds hTrimmed.not_endsBlank
      | cons c after =>
          exact hAfter c List.mem_cons_self
    have hClose : close opened = [Chars.trim opened] := by
      simp [close, hNone]
    have hSplit :
        opened ++ text =
          before ++
            (Chars.trim opened ++ (after ++ text)) := by
      conv_lhs => rw [hOpened]
      simp only [List.append_assoc]
    rw [hClose, hSplit]
    exact .chunk hBefore hTrimmed hBreak
      (blanks_append hAfter hCut)

/- The words of the chunks are those of the text. -/
theorem words_eq (hCut : IsCutInto text chunks) :
    chunks.flatMap Chars.words = Chars.words text := by
  induction hCut with
  | blanks hGap =>
      rw [Chars.words_eq_nil hGap, List.flatMap_nil]
  | chunk hGap hChunk hBreak hRest ih =>
      rw [List.flatMap_cons, ih,
        Chars.words_blanks_append _ hGap,
        Chars.words_append hBreak]

/- Only blanks have no chunks. -/
theorem eq_nil_iff (hCut : IsCutInto text chunks) :
    chunks = [] ↔ Chars.AreBlank text := by
  cases hCut with
  | blanks hGap => exact ⟨fun _ => hGap, fun _ => rfl⟩
  | @chunk gap chunk rest chunks hGap hChunk hBreak hRest =>
      constructor
      · intro hNil
        cases hNil
      · intro hBlank
        have hChunkBlank : Chars.AreBlank chunk :=
          fun c hc => hBlank c (List.mem_append_right gap
            (List.mem_append_left rest hc))
        exact absurd hChunkBlank.endsBlank
          hChunk.not_endsBlank

end IsCutInto

/-
  The chunks of an open text and the sentences ahead keep
  all of both but blanks.  The open text may only end within
  a word if no sentence is ahead.
-/
theorem gather_isCutInto
    (bounds : ChunkBounds)
    (opened : List Char)
    (words : Nat)
    (sentences : List (List Char))
    (hApart : Sentence.AreApart sentences)
    (hEnds : sentences = [] ∨ Chars.EndsBlank opened) :
    IsCutInto (opened ++ sentences.flatten)
      (gather bounds opened words sentences) := by
  induction sentences generalizing opened words with
  | nil =>
      have hNothing : IsCutInto [] [] :=
        .blanks fun c hc => absurd hc List.not_mem_nil
      have hClosed :
          IsCutInto (opened ++ []) (close opened ++ []) :=
        hNothing.close_append (Or.inl rfl)
      rwa [List.append_nil (close opened)] at hClosed
  | cons sentence rest ih =>
      rcases hApart with ⟨hSentence, hRest⟩
      have hOpened : Chars.EndsBlank opened :=
        hEnds.resolve_left (List.cons_ne_nil sentence rest)
      have hJoined :
          rest = [] ∨
            Chars.EndsBlank (opened ++ sentence) := by
        rcases hSentence with hNone | hSentence
        · exact Or.inl hNone
        · right
          cases sentence with
          | nil => rwa [List.append_nil]
          | cons c cs =>
              exact (Chars.endsBlank_append_iff opened
                (List.cons_ne_nil c cs)).mpr hSentence
      have hEmpty : Chars.EndsBlank [] :=
        fun c hc => by cases hc
      rw [List.flatten_cons, ← List.append_assoc]
      by_cases hFits :
          words + wordCount sentence ≤ bounds.high
      · by_cases hFull :
            bounds.low ≤ words + wordCount sentence
        · rw [gather, if_pos hFits, if_pos hFull]
          apply IsCutInto.close_append
          · rcases hJoined with rfl | hEnds
            · exact Or.inl rfl
            · exact Or.inr hEnds
          · exact ih [] 0 hRest (Or.inr hEmpty)
        · rw [gather, if_pos hFits, if_neg hFull]
          exact ih (opened ++ sentence) _ hRest hJoined
      · rw [gather, if_neg hFits, List.append_assoc]
        exact IsCutInto.close_append (Or.inr hOpened)
          (ih sentence _ hRest hSentence)

theorem split_isCutInto
    (bounds : ChunkBounds)
    (cs : List Char) :
    IsCutInto cs (split bounds cs) := by
  have hCut :=
    gather_isCutInto bounds [] 0 (Sentence.split cs)
      (Sentence.split_areApart cs)
      (Or.inr fun c hc => by cases hc)
  rwa [List.nil_append, Sentence.flatten_split] at hCut

end Chunk

------------------------------------------------------------
-- Chunks of a String
------------------------------------------------------------

variable {target tolerance : UInt64}

/- Bounds that can be added up give the chunks of a text. -/
theorem speechChunks_eq_ok_iff
    {s : String}
    {chunks : List String} :
    speechChunks target tolerance s = .ok chunks ↔
      target.toNat + tolerance.toNat < 2 ^ 64 ∧
        chunks =
          chunksWithin (.around target tolerance) s := by
  unfold speechChunks ChunkBounds.checked
  by_cases hFits :
    (ChunkBounds.around target tolerance).high < UInt64.size
  · rw [if_pos hFits]
    constructor
    · intro hChunks
      exact ⟨hFits, (Except.ok.inj hChunks).symm⟩
    · rintro ⟨-, rfl⟩
      rfl
  · rw [if_neg hFits]
    constructor
    · intro hChunks
      cases hChunks
    · rintro ⟨hSum, -⟩
      exact absurd hSum hFits

/- Other bounds are a panic. -/
theorem speechChunks_eq_error
    (s : String)
    (hLarge : 2 ^ 64 ≤ target.toNat + tolerance.toNat) :
    speechChunks target tolerance s =
      .error .addOverflow := by
  have hHigh :
      ¬ (ChunkBounds.around target tolerance).high <
        UInt64.size :=
    not_lt.mpr hLarge
  unfold speechChunks ChunkBounds.checked
  rw [if_neg hHigh]
  rfl

theorem chunksWithin_eq_nil_iff
    (bounds : ChunkBounds)
    (s : String) :
    chunksWithin bounds s = [] ↔
      ∀ c ∈ s.toList, isBlank c = true := by
  rw [chunksWithin, List.map_eq_nil_iff]
  exact (Chunk.split_isCutInto _ s.toList).eq_nil_iff

/-
  If the target and the tolerance add up within a word, a
  text is its chunks in order with blanks alone around them,
  each chunk has neither blanks in front nor behind, the
  words of the chunks are the words of the text, and a text
  has no chunks exactly if it is blank.
-/
theorem speechChunks_keeps
    (target tolerance : UInt64)
    (s : String) :
    (target.toNat + tolerance.toNat < 2 ^ 64 →
      ∃ chunks,
        speechChunks target tolerance s = .ok chunks ∧
          Chunk.IsCutInto s.toList
            (chunks.map String.toList) ∧
          (chunks.map String.toList).flatMap Chars.words =
            Chars.words s.toList ∧
          (chunks = [] ↔
            ∀ c ∈ s.toList, isBlank c = true)) ∧
      (2 ^ 64 ≤ target.toNat + tolerance.toNat →
        speechChunks target tolerance s =
          .error .addOverflow) := by
  refine ⟨?_, speechChunks_eq_error s⟩
  intro hFits
  have hTexts :
      (chunksWithin (.around target tolerance) s).map
          String.toList =
        Chunk.split (.around target tolerance)
          s.toList := by
    simp [chunksWithin, Function.comp_def]
  have hCut :=
    Chunk.split_isCutInto (.around target tolerance)
      s.toList
  refine ⟨chunksWithin (.around target tolerance) s,
    speechChunks_eq_ok_iff.mpr ⟨hFits, rfl⟩, ?_, ?_,
    chunksWithin_eq_nil_iff _ s⟩
  · rw [hTexts]
    exact hCut
  · rw [hTexts]
    exact hCut.words_eq

theorem speechChunks_keeps_sentences :
    ((2 : UInt64).toNat + (1 : UInt64).toNat < 2 ^ 64 ∧
      ∃ chunks,
        speechChunks 2 1 " a b. c.\n" = .ok chunks ∧
          Chunk.IsCutInto " a b. c.\n".toList
            (chunks.map String.toList) ∧
          (chunks.map String.toList).flatMap Chars.words =
            Chars.words " a b. c.\n".toList ∧
          (chunks = [] ↔
            ∀ c ∈ " a b. c.\n".toList, isBlank c = true)) ∧
      (2 ^ 64 ≤
          (0xffffffffffffffff : UInt64).toNat +
            (1 : UInt64).toNat ∧
        speechChunks 0xffffffffffffffff 1 " a b. c.\n" =
          .error .addOverflow) := by
  have hFits :
      (2 : UInt64).toNat + (1 : UInt64).toNat < 2 ^ 64 := by
    decide
  have hOver :
      2 ^ 64 ≤
        (0xffffffffffffffff : UInt64).toNat +
          (1 : UInt64).toNat := by
    decide
  exact ⟨⟨hFits, (speechChunks_keeps 2 1 _).1 hFits⟩,
    hOver,
    (speechChunks_keeps 0xffffffffffffffff 1 _).2 hOver⟩

end Slideshow

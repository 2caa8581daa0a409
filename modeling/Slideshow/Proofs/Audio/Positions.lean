import Slideshow.Proofs.Audio.Chunks

/-
  This file proves that the walk over the chunks of a WAVE
  file needs no byte but those of the file and ends after
  one step for each header, and that chunks which hold all
  that is read of them may have any others between them.

  The walk is stated once more by positions, with a number
  of steps, and without a result if a byte is asked for that
  the file does not have (`Wave.walkFrom`).  It has the
  result of the walk over the bytes themselves, for all
  bytes.

  Key definitions include:
    * `Wave.walkFrom`
    * `Wave.readWithin`

  Main results include:
    * `Wave.walkFrom_eq_walk`
    * `Wave.readWithin_eq_read`
    * `Wave.read_ofChunks_of_isWhole`
-/

namespace Slideshow

namespace Wave

variable {bytes : Bytes}
variable {format : Option Format}
variable {position : Nat}

------------------------------------------------------------
-- Positions
------------------------------------------------------------

/- Four bytes of a file from a position on. -/
def fourAt?
    (bytes : Bytes)
    (position : Nat) : Option Bytes :=
  if position + 4 ≤ bytes.length then
    some ((bytes.drop position).take 4)
  else none

/-
  The walk over the chunks by positions in a file, for a
  number of steps.  Positions are compared with the length
  of the file before anything is read there.  There is no
  result if the steps run out, and none if a byte is asked
  for that the file does not have.
-/
def walkFrom
    (bytes : Bytes)
    (format : Option Format)
    (position : Nat) :
    Nat → Option (Except WaveFault WaveInfo)
  | 0 => none
  | steps + 1 =>
      if position + 8 ≤ bytes.length then do
        let mark ← fourAt? bytes position
        let length ← bytes.word32At? (position + 4)
        let next := position + 8 + stride length
        if mark = formatMark then
          if position + 24 ≤ bytes.length then
            let found ←
              readFormat? (bytes.drop (position + 8))
            walkFrom bytes (some found) next steps
          else some (.error .shortFormat)
        else if mark = dataMark then
          some (conclude format length)
        else walkFrom bytes format next steps
      else some (.error .noData)

/-
  Reading a file by positions, with a number of steps for
  its chunks.
-/
def readWithin
    (bytes : Bytes)
    (steps : Nat) :
    Option (Except WaveFault WaveInfo) :=
  if 12 ≤ bytes.length then do
    let riff ← fourAt? bytes 0
    let wave ← fourAt? bytes 8
    if riff = riffMark ∧ wave = waveMark then
      walkFrom bytes none 12 steps
    else some (.error .noMagic)
  else some (.error .noMagic)

/- The header at a position, and what is behind it. -/
theorem exists_header
    (hHeader : position + 8 ≤ bytes.length) :
    ∃ mark length,
      mark.length = 4 ∧
        fourAt? bytes position = some mark ∧
        bytes.word32At? (position + 4) = some length ∧
        bytes.drop position =
          mark ++
            (Bytes.word32 length ++
              bytes.drop (position + 8)) := by
  have hFour : ((bytes.drop (position + 4)).take 4).length =
      4 := by
    rw [List.length_take, List.length_drop]
    omega
  rcases Bytes.exists_word32 hFour with ⟨length, hLength⟩
  refine ⟨(bytes.drop position).take 4, length, ?_,
    if_pos (by omega), Bytes.word32At?_eq_some_iff.mpr hLength,
    ?_⟩
  · rw [List.length_take, List.length_drop]
    omega
  · have hBehind :
        bytes.drop (position + 8) =
          (bytes.drop (position + 4)).drop 4 := by
      rw [List.drop_drop]
    have hRest :
        bytes.drop (position + 4) =
          (bytes.drop position).drop 4 := by
      rw [List.drop_drop]
    rw [← hLength, hBehind, List.take_append_drop, hRest,
      List.take_append_drop]

/- Less than eight bytes are no header. -/
theorem walk_drop_of_not_le
    (format : Option Format)
    (hHeader : ¬ position + 8 ≤ bytes.length) :
    walk format (bytes.drop position) = .error .noData := by
  have hShort : (bytes.drop position).length < 8 := by
    rw [List.length_drop]
    omega
  rw [walk]
  intro a b c d e f g h body hBytes
  rw [hBytes] at hShort
  simp only [List.length_cons] at hShort
  omega

/-
  Each step but the last passes the eight bytes of a header,
  so a walk has no more steps than there are headers in the
  bytes before it.
-/
theorem walkFrom_eq_walk
    {steps : Nat}
    (hSteps : bytes.length < position + 8 * steps) :
    walkFrom bytes format position (steps + 1) =
      some (walk format (bytes.drop position)) := by
  induction steps generalizing format position with
  | zero =>
      have hHeader : ¬ position + 8 ≤ bytes.length := by
        omega
      rw [walkFrom, if_neg hHeader,
        walk_drop_of_not_le format hHeader]
  | succ steps ih =>
      by_cases hHeader : position + 8 ≤ bytes.length
      · rcases exists_header hHeader with
          ⟨mark, length, hFour, hMarkAt, hLengthAt, hDrop⟩
        rw [walkFrom, if_pos hHeader, hMarkAt, hLengthAt,
          hDrop]
        simp only [Option.bind_eq_bind, Option.bind_some]
        split
        · rename_i hMark
          rw [hMark]
          split
          · rename_i hFormat
            have hRoom :
                readFormat? (bytes.drop (position + 8)) ≠
                  none := by
              rw [ne_eq, Format.readFormat?_eq_none_iff,
                List.length_drop]
              omega
            rcases Option.ne_none_iff_exists'.mp hRoom with
              ⟨found, hFound⟩
            rw [hFound, Option.bind_some, ih (by omega),
              walk_formatMark format _ hFound,
              List.drop_drop]
          · rename_i hFormat
            rw [walk_formatMark_short]
            rw [List.length_drop]
            omega
        · rename_i hMark
          split
          · rename_i hData
            rw [hData, walk_dataMark]
          · rename_i hData
            rw [ih (by omega),
              walk_otherMark format _ _ hFour hMark hData,
              List.drop_drop]
      · rw [walkFrom, if_neg hHeader,
          walk_drop_of_not_le format hHeader]

/- A file is read with a step for every eight bytes. -/
theorem readWithin_eq_read (bytes : Bytes) :
    readWithin bytes (bytes.length / 8 + 1) =
      some (read bytes) := by
  unfold readWithin read
  by_cases hHead : 12 ≤ bytes.length
  · have hRiff : fourAt? bytes 0 = some (bytes.take 4) :=
      if_pos (by omega)
    have hWave :
        fourAt? bytes 8 = some ((bytes.drop 8).take 4) :=
      if_pos (by omega)
    rw [if_pos hHead, hRiff, hWave]
    simp only [Option.bind_eq_bind, Option.bind_some]
    split
    · exact walkFrom_eq_walk (by omega)
    · rfl
  · rw [if_neg hHead, if_neg]
    rintro ⟨-, hWave⟩
    exact hHead (le_length_of_waveMark hWave)

------------------------------------------------------------
-- Whole Chunks
------------------------------------------------------------

variable {chunks : List Chunk}

/-
  What is read of a file of whole chunks is concluded of the
  format in the body of the last format chunk.
-/
theorem read_ofChunks_eq
    (hWhole : ∀ chunk ∈ chunks, chunk.IsWhole)
    (size length : UInt32)
    (rest : Bytes) :
    (Chunk.lastFormat? chunks = none ∧
        read (ofChunks size chunks length rest) =
          .error .dataBeforeFormat) ∨
      ∃ chunk found,
        Chunk.lastFormat? chunks = some chunk ∧
          Format.IsHeldBy found chunk.body ∧
          read (ofChunks size chunks length rest) =
            conclude (some found) length := by
  rcases read_ofChunks_cases size chunks length rest with
    hNone | ⟨before, chunk, after, rfl, hLast, hFound⟩
  · exact Or.inl hNone
  · have hRoom : 16 ≤ chunk.body.length :=
      hWhole chunk (by simp) hLast.mark_eq
    have hFind :
        Chunk.lastFormat? (before ++ chunk :: after) =
          some chunk :=
      Chunk.lastFormat?_eq_some_iff.mpr
        ⟨before, after, rfl, hLast⟩
    rw [Chunk.behind, Chunk.padded, List.append_assoc]
      at hFound
    rcases hFound with ⟨found, hHeld, hRead⟩ | ⟨hShort, -⟩
    · exact Or.inr ⟨chunk, found, hFind,
        (Format.isHeldBy_append_iff hRoom).mp hHeld, hRead⟩
    · rw [List.length_append] at hShort
      omega

/- What holds of the format of the last format chunk. -/
theorem exists_lastFormat_iff
    {chunk : Chunk}
    {found : Format}
    {p : Format → Prop}
    (hLast : Chunk.lastFormat? chunks = some chunk)
    (hHeld : found.IsHeldBy chunk.body) :
    (∃ chunk format,
      Chunk.lastFormat? chunks = some chunk ∧
        Format.IsHeldBy format chunk.body ∧ p format) ↔
      p found := by
  constructor
  · rintro ⟨other, format, hOther, hFormat, hp⟩
    cases hLast.symm.trans hOther
    rwa [hHeld.unique hFormat]
  · intro hp
    exact ⟨chunk, found, hLast, hHeld, hp⟩

/-
  A file of chunks, in which each format chunk holds all
  fields of a format, gives the format of the last of them
  and the declared length of the samples.  It is refused if
  no chunk gives a format or if the byte rate does not fit
  32 bits.  A chunk that is no format chunk can be put in
  between.  All bytes are read with a step for every eight
  of them, and with no other bytes.
-/
theorem read_ofChunks_of_isWhole
    (chunks : List Chunk)
    (hWhole : ∀ chunk ∈ chunks, chunk.IsWhole)
    (size length : UInt32)
    (rest : Bytes) :
    (∀ info,
      read (ofChunks size chunks length rest) = .ok info ↔
        ∃ chunk format,
          Chunk.lastFormat? chunks = some chunk ∧
            Format.IsHeldBy format chunk.body ∧
            info = format.info length ∧
            info.byteRate < 2 ^ 32) ∧
      (∀ fault,
        read (ofChunks size chunks length rest) =
            .error fault ↔
          (fault = .dataBeforeFormat ∧
            Chunk.lastFormat? chunks = none) ∨
          fault = .byteRateTooLarge ∧
            ∃ chunk format,
              Chunk.lastFormat? chunks = some chunk ∧
                Format.IsHeldBy format chunk.body ∧
                2 ^ 32 ≤ (format.info length).byteRate) ∧
      (∀ before after extra size',
        chunks = before ++ after →
          extra.mark ≠ formatMark →
            read
                (ofChunks size' (before ++ extra :: after)
                  length rest) =
              read (ofChunks size chunks length rest)) ∧
      ∀ bytes,
        readWithin bytes (bytes.length / 8 + 1) =
          some (read bytes) := by
  refine ⟨?_, ?_, ?_, readWithin_eq_read⟩
  · intro info
    rcases read_ofChunks_eq hWhole size length rest with
      ⟨hNone, hRead⟩ | ⟨chunk, found, hLast, hHeld, hRead⟩
    · simp [hRead, hNone]
    · rw [hRead, exists_lastFormat_iff hLast hHeld]
      exact conclude_eq_ok_iff
  · intro fault
    rcases read_ofChunks_eq hWhole size length rest with
      ⟨hNone, hRead⟩ | ⟨chunk, found, hLast, hHeld, hRead⟩
    · simp [hRead, hNone, eq_comm]
    · rw [hRead, exists_lastFormat_iff hLast hHeld, hLast]
      simpa using conclude_eq_error_iff
  · rintro before after extra size' rfl hExtra
    have hFirst : ∀ chunk ∈ before, chunk.IsWhole := by
      intro chunk hChunk
      exact hWhole chunk (List.mem_append_left after hChunk)
    rw [read_ofChunks, read_ofChunks]
    simp only [List.flatMap_append, List.flatMap_cons,
      List.append_assoc]
    apply walk_chunks_congr hFirst
    intro format
    exact walk_chunk_of_ne format _ hExtra

/- The format chunk of 16-bit samples of one channel. -/
def Chunk.ofRate (rate : UInt32) : Chunk :=
  .ofFormat (formatBody rate) (by
    rw [length_formatBody]
    decide)

/- A chunk of odd length that holds the name of samples. -/
def Chunk.remark : Chunk where
  mark := [0x4C, 0x49, 0x53, 0x54]
  body := dataMark ++ [0]
  padding := 0
  length_mark := rfl
  mark_ne := by decide
  length_body := by decide

/- Two formats, and a remark that is put between them. -/
theorem read_ofChunks_of_isWhole_twice :
    (∀ chunk ∈ [Chunk.ofRate 44100, Chunk.ofRate 8000],
      chunk.IsWhole) ∧
      Chunk.remark.mark ≠ formatMark ∧
      read
          (ofChunks 0
            [Chunk.ofRate 44100, Chunk.remark,
              Chunk.ofRate 8000] 2 [1, 2, 3]) =
        .ok ⟨1, 8000, 16, 2⟩ := by
  have hWhole :
      ∀ chunk ∈ [Chunk.ofRate 44100, Chunk.ofRate 8000],
        chunk.IsWhole := by
    intro chunk hChunk _
    rcases List.mem_pair.mp hChunk with rfl | rfl
    · exact (length_formatBody 44100).ge
    · exact (length_formatBody 8000).ge
  have hRemark : Chunk.remark.mark ≠ formatMark := by
    decide
  rcases read_ofChunks_of_isWhole _ hWhole 0 2 [1, 2, 3]
    with ⟨hOk, -, hInsert, -⟩
  have hSame :=
    hInsert [Chunk.ofRate 44100] [Chunk.ofRate 8000]
      Chunk.remark 0 rfl hRemark
  refine ⟨hWhole, hRemark, hSame.trans ((hOk _).mpr ?_)⟩
  exact ⟨Chunk.ofRate 8000, ⟨1, 8000, 16⟩, rfl,
    ⟨rfl, rfl, rfl⟩, rfl, by decide⟩

end Wave

end Slideshow

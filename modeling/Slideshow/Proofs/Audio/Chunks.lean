import Mathlib.Data.List.GetD
import Mathlib.Data.List.TakeDrop
import Mathlib.Data.Nat.Basic
import Mathlib.Order.Basic
import Slideshow.Proofs.Audio.Wave

/-
  This file proves what is read of the chunks of a WAVE file
  in front of its samples.

  A chunk is a name, a declared length, a body and, behind
  an odd body, one more byte (`Wave.Chunk.bytes`).  The walk
  over chunks passes them one by one, whatever is behind
  them, and takes the format of the last chunk that gives
  one (`Wave.walk_chunks_of_last`).  Any bytes are chunks up
  to the place where the walk comes to its end
  (`Wave.splits`), so a file is read exactly if it is one of
  chunks, and the format is then found where the walk over
  them finds it.

  The fields of a format are looked for behind the header of
  its chunk.  Whether they are still in the chunk is not
  checked against the length that the header declares, only
  against the end of the file.

  Key definitions include:
    * `Wave.Format.IsHeldBy`
    * `Wave.Chunk`
    * `Wave.Chunk.bytes`
    * `Wave.Chunk.IsLast`
    * `Wave.ofChunks`

  Main results include:
    * `Wave.Format.readFormat?_eq_some_iff`
    * `Wave.walk_chunks_of_last`
    * `Wave.splits`
    * `Wave.read_eq_ok_iff`
    * `Wave.read_takes_format_behind_header`
-/

namespace Slideshow

namespace Wave

variable {body more rest tail : Bytes}
variable {length : UInt32}

------------------------------------------------------------
-- Formats
------------------------------------------------------------

namespace Format

/- The fields of a format stand at their places in bytes. -/
structure IsHeldBy
    (format : Format)
    (body : Bytes) : Prop where
  channels_eq :
    (body.drop 2).take 2 = Bytes.word16 format.channels
  sampleRate_eq :
    (body.drop 4).take 4 = Bytes.word32 format.sampleRate
  bitsPerSample_eq :
    (body.drop 14).take 2 =
      Bytes.word16 format.bitsPerSample

variable {format : Format}

/- What a format is read from. -/
theorem readFormat?_eq_some_iff :
    readFormat? body = some format ↔
      format.IsHeldBy body := by
  simp only [readFormat?, Option.bind_eq_bind,
    Option.bind_eq_some_iff, Bytes.word16At?_eq_some_iff,
    Bytes.word32At?_eq_some_iff, Option.pure_def, Option.some.injEq]
  constructor
  · rintro ⟨channels, hChannels, rate, hRate, bits, hBits,
      rfl⟩
    exact ⟨hChannels, hRate, hBits⟩
  · intro hHeld
    exact ⟨_, hHeld.channels_eq, _, hHeld.sampleRate_eq, _,
      hHeld.bitsPerSample_eq, rfl⟩

theorem IsHeldBy.le_length
    (hHeld : format.IsHeldBy body) :
    16 ≤ body.length := by
  have hBits := congrArg List.length hHeld.bitsPerSample_eq
  rw [List.length_take, List.length_drop] at hBits
  change min 2 (body.length - 14) = 2 at hBits
  omega

/- Any 16 bytes hold a format. -/
theorem exists_isHeldBy
    (hLength : 16 ≤ body.length) :
    ∃ format : Format, format.IsHeldBy body := by
  have hTaken :
      ∀ offset count, offset + count ≤ 16 →
        ((body.drop offset).take count).length = count := by
    intro offset count hFits
    rw [List.length_take, List.length_drop]
    omega
  rcases Bytes.exists_word16 (hTaken 2 2 (by omega)) with
    ⟨channels, hChannels⟩
  rcases Bytes.exists_word32 (hTaken 4 4 (by omega)) with
    ⟨rate, hRate⟩
  rcases Bytes.exists_word16 (hTaken 14 2 (by omega)) with
    ⟨bits, hBits⟩
  exact ⟨⟨channels, rate, bits⟩, hChannels, hRate, hBits⟩

/- Of 16 bytes and more only the first 16 count. -/
theorem isHeldBy_append_iff
    (hLength : 16 ≤ body.length) :
    format.IsHeldBy (body ++ more) ↔
      format.IsHeldBy body := by
  have hTaken :
      ∀ offset count, offset + count ≤ 16 →
        ((body ++ more).drop offset).take count =
          (body.drop offset).take count := by
    intro offset count hFits
    rw [List.drop_append_of_le_length (by omega),
      List.take_append_of_le_length]
    rw [List.length_drop]
    omega
  constructor
  · intro hHeld
    exact
      ⟨(hTaken 2 2 (by omega)).symm.trans hHeld.channels_eq,
        (hTaken 4 4 (by omega)).symm.trans
          hHeld.sampleRate_eq,
        (hTaken 14 2 (by omega)).symm.trans
          hHeld.bitsPerSample_eq⟩
  · intro hHeld
    exact
      ⟨(hTaken 2 2 (by omega)).trans hHeld.channels_eq,
        (hTaken 4 4 (by omega)).trans hHeld.sampleRate_eq,
        (hTaken 14 2 (by omega)).trans
          hHeld.bitsPerSample_eq⟩

theorem IsHeldBy.iff_le_length
    (hHeld : format.IsHeldBy (body ++ more)) :
    format.IsHeldBy body ↔ 16 ≤ body.length :=
  ⟨IsHeldBy.le_length,
    fun hLength => (isHeldBy_append_iff hLength).mp hHeld⟩

/- No format is read from less than 16 bytes. -/
theorem readFormat?_eq_none_iff :
    readFormat? body = none ↔ body.length < 16 := by
  rw [Option.eq_none_iff_forall_ne_some]
  simp only [ne_eq, readFormat?_eq_some_iff]
  constructor
  · intro hNone
    by_contra hLength
    rcases exists_isHeldBy (not_lt.mp hLength) with
      ⟨format, hHeld⟩
    exact hNone format hHeld
  · intro hLength format hHeld
    exact absurd hHeld.le_length (not_le.mpr hLength)

theorem IsHeldBy.unique
    {other : Format}
    (hHeld : format.IsHeldBy body)
    (hOther : other.IsHeldBy body) :
    format = other := by
  rw [← readFormat?_eq_some_iff] at hHeld hOther
  exact Option.some.inj (hHeld.symm.trans hOther)

/- A format, with the length of the samples. -/
def info
    (format : Format)
    (length : UInt32) : WaveInfo :=
  ⟨format.channels, format.sampleRate,
    format.bitsPerSample, length⟩

end Format

section Conclude

variable {found : Format}

theorem conclude_some
    (found : Format)
    (length : UInt32) :
    conclude (some found) length =
      if (found.info length).byteRate < 2 ^ 32 then
        .ok (found.info length)
      else .error .byteRateTooLarge :=
  rfl

/- When a format can be right. -/
theorem conclude_eq_ok_iff
    {info : WaveInfo} :
    conclude (some found) length = .ok info ↔
      info = found.info length ∧
        info.byteRate < 2 ^ 32 := by
  rw [conclude_some]
  split
  · rename_i hRate
    constructor
    · rintro ⟨⟩
      exact ⟨rfl, hRate⟩
    · rintro ⟨rfl, -⟩
      rfl
  · rename_i hRate
    constructor
    · intro hOk
      cases hOk
    · rintro ⟨rfl, hOk⟩
      exact absurd hOk hRate

/- Why a format cannot be right. -/
theorem conclude_eq_error_iff
    {fault : WaveFault} :
    conclude (some found) length = .error fault ↔
      fault = .byteRateTooLarge ∧
        2 ^ 32 ≤ (found.info length).byteRate := by
  rw [conclude_some]
  split
  · rename_i hRate
    constructor
    · intro hError
      cases hError
    · rintro ⟨-, hOver⟩
      exact absurd hRate (not_lt.mpr hOver)
  · rename_i hRate
    constructor
    · rintro ⟨⟩
      exact ⟨rfl, not_lt.mp hRate⟩
    · rintro ⟨rfl, -⟩
      rfl

end Conclude

------------------------------------------------------------
-- Chunks
------------------------------------------------------------

/-
  A chunk in front of the samples.  A body of odd length is
  followed by one more byte.
-/
structure Chunk where
  mark : Bytes
  body : Bytes
  padding : UInt8
  length_mark : mark.length = 4
  mark_ne : mark ≠ dataMark
  length_body : body.length < 2 ^ 32

namespace Chunk

/- The length that the header of a chunk declares. -/
def size (chunk : Chunk) : UInt32 :=
  chunk.body.length.toUInt32

/- The body of a chunk, made even. -/
def padded (chunk : Chunk) : Bytes :=
  chunk.body ++
    if chunk.body.length % 2 = 1 then [chunk.padding]
    else []

/- A chunk as it stands in a file. -/
def bytes (chunk : Chunk) : Bytes :=
  chunk.mark ++ (Bytes.word32 chunk.size ++ chunk.padded)

/- A format chunk has room for all fields of a format. -/
def IsWhole (chunk : Chunk) : Prop :=
  chunk.mark = formatMark → 16 ≤ chunk.body.length

variable (chunk : Chunk)

theorem toNat_size :
    chunk.size.toNat = chunk.body.length :=
  Nat.mod_eq_of_lt chunk.length_body

/- The next chunk begins behind the padding. -/
theorem length_padded :
    chunk.padded.length = stride chunk.size := by
  rw [stride, toNat_size, padded, List.length_append]
  split
  · rename_i hOdd
    rw [hOdd]
    rfl
  · rename_i hEven
    rw [Nat.mod_two_ne_one.mp hEven]
    rfl

theorem bytes_append (rest : Bytes) :
    chunk.bytes ++ rest =
      chunk.mark ++
        (Bytes.word32 chunk.size ++
          (chunk.padded ++ rest)) := by
  rw [bytes, List.append_assoc, List.append_assoc]

/- Bytes behind a header are a body if there are enough. -/
theorem exists_padded
    {mark : Bytes}
    (hMark : mark.length = 4)
    (hOther : mark ≠ dataMark)
    (hRoom : stride length ≤ body.length) :
    ∃ chunk : Chunk,
      chunk.mark = mark ∧ chunk.size = length ∧
        chunk.padded = body.take (stride length) := by
  have hLength :
      (body.take length.toNat).length = length.toNat := by
    rw [List.length_take]
    unfold stride at hRoom
    omega
  refine ⟨⟨mark, body.take length.toNat,
    body.getD length.toNat 0, hMark, hOther, ?_⟩, rfl, ?_, ?_⟩
  · rw [hLength]
    exact length.toNat_lt
  · apply UInt32.toNat.inj
    rw [toNat_size]
    exact hLength
  · unfold padded stride at *
    dsimp only
    rw [hLength]
    split
    · rename_i hOdd
      rw [hOdd] at hRoom ⊢
      have hLt : length.toNat < body.length := by omega
      rw [List.getD_eq_getElem _ _ hLt, List.take_concat_get' _ _ hLt]
    · rename_i hEven
      rw [Nat.mod_two_ne_one.mp hEven, List.append_nil]
      rfl

end Chunk

------------------------------------------------------------
-- Steps of the Walk
------------------------------------------------------------

variable {format : Option Format}
variable {found : Format}
variable {chunk : Chunk}
variable {chunks before after : List Chunk}

/- A header of neither format nor samples is passed by. -/
theorem walk_otherMark
    {mark : Bytes}
    (format : Option Format)
    (length : UInt32)
    (body : Bytes)
    (hMark : mark.length = 4)
    (hFormat : mark ≠ formatMark)
    (hData : mark ≠ dataMark) :
    walk format (mark ++ (Bytes.word32 length ++ body)) =
      walk format (body.drop (stride length)) := by
  match mark, hMark with
  | [a, b, c, d], _ =>
      simp only [Bytes.word32, List.cons_append,
        List.nil_append]
      rw [walk, Bytes.toWord32_word32]
      simp only [if_neg hFormat, if_neg hData]

/- A format chunk at the end of a file may be cut short. -/
theorem walk_formatMark_short
    (format : Option Format)
    (length : UInt32)
    (hShort : body.length < 16) :
    walk format
        (formatMark ++ (Bytes.word32 length ++ body)) =
      .error .shortFormat := by
  simp only [formatMark, Bytes.word32, List.cons_append,
    List.nil_append]
  rw [walk, Bytes.toWord32_word32]
  simp only [formatMark, if_true,
    Format.readFormat?_eq_none_iff.mpr hShort]

theorem walk_chunk_of_ne
    (format : Option Format)
    (rest : Bytes)
    (hOther : chunk.mark ≠ formatMark) :
    walk format (chunk.bytes ++ rest) =
      walk format rest := by
  rw [chunk.bytes_append,
    walk_otherMark format chunk.size _ chunk.length_mark
      hOther chunk.mark_ne,
    List.drop_left' chunk.length_padded]

theorem walk_chunk_of_isHeldBy
    (format : Option Format)
    (hMark : chunk.mark = formatMark)
    (hHeld : found.IsHeldBy (chunk.padded ++ rest)) :
    walk format (chunk.bytes ++ rest) =
      walk (some found) rest := by
  rw [chunk.bytes_append, hMark,
    walk_formatMark format chunk.size
      (Format.readFormat?_eq_some_iff.mpr hHeld),
    List.drop_left' chunk.length_padded]

/- Chunks that give no format are passed by. -/
theorem walk_chunks_of_ne
    (format : Option Format)
    (rest : Bytes)
    (hOther : ∀ chunk ∈ chunks, chunk.mark ≠ formatMark) :
    walk format (chunks.flatMap Chunk.bytes ++ rest) =
      walk format rest := by
  induction chunks with
  | nil => rfl
  | cons chunk chunks ih =>
      rw [List.forall_mem_cons] at hOther
      rw [List.flatMap_cons, List.append_assoc,
        walk_chunk_of_ne _ _ hOther.1, ih hOther.2]

/-
  Whatever stands in front, a format chunk with less than 16
  bytes behind its header ends the walk.
-/
theorem walk_chunks_short
    (format : Option Format)
    (chunks : List Chunk)
    (length : UInt32)
    (hShort : body.length < 16) :
    walk format
        (chunks.flatMap Chunk.bytes ++
          (formatMark ++ (Bytes.word32 length ++ body))) =
      .error .shortFormat := by
  induction chunks generalizing format with
  | nil => exact walk_formatMark_short format length hShort
  | cons chunk chunks ih =>
      rw [List.flatMap_cons, List.append_assoc]
      by_cases hMark : chunk.mark = formatMark
      · by_cases hRoom :
            16 ≤ (chunk.padded ++
              (chunks.flatMap Chunk.bytes ++
                (formatMark ++
                  (Bytes.word32 length ++ body)))).length
        · rcases Format.exists_isHeldBy hRoom with
            ⟨found, hHeld⟩
          rw [walk_chunk_of_isHeldBy format hMark hHeld]
          exact ih (some found)
        · rw [chunk.bytes_append, hMark]
          exact walk_formatMark_short format chunk.size
            (not_le.mp hRoom)
      · rw [walk_chunk_of_ne _ _ hMark]
        exact ih format

/-
  The last format chunk decides on the format, if there are
  16 bytes behind its header.  Those in front of it have
  even more bytes behind them.
-/
theorem walk_chunks_of_last
    (format : Option Format)
    (before : List Chunk)
    (hMark : chunk.mark = formatMark)
    (hOther : ∀ other ∈ after, other.mark ≠ formatMark)
    (hHeld :
      found.IsHeldBy
        (chunk.padded ++
          (after.flatMap Chunk.bytes ++ rest))) :
    walk format
        ((before ++ chunk :: after).flatMap Chunk.bytes ++
          rest) =
      walk (some found) rest := by
  induction before generalizing format with
  | nil =>
      rw [List.nil_append, List.flatMap_cons,
        List.append_assoc,
        walk_chunk_of_isHeldBy format hMark hHeld,
        walk_chunks_of_ne _ _ hOther]
  | cons first before ih =>
      rw [List.cons_append, List.flatMap_cons,
        List.append_assoc]
      by_cases hFirst : first.mark = formatMark
      · have hRoom :
            16 ≤ (first.padded ++
              ((before ++ chunk :: after).flatMap
                Chunk.bytes ++ rest)).length := by
          have hEnough := hHeld.le_length
          simp only [List.length_append, List.flatMap_append,
            List.flatMap_cons, Chunk.bytes] at hEnough ⊢
          omega
        rcases Format.exists_isHeldBy hRoom with
          ⟨other, hHeld'⟩
        rw [walk_chunk_of_isHeldBy format hFirst hHeld']
        exact ih (some other)
      · rw [walk_chunk_of_ne _ _ hFirst]
        exact ih format

/-
  Behind whole chunks, what the walk makes of a rest is all
  that matters of it.
-/
theorem walk_chunks_congr
    {rest rest' : Bytes}
    (hWhole : ∀ chunk ∈ chunks, chunk.IsWhole)
    (hSame : ∀ format, walk format rest = walk format rest')
    (format : Option Format) :
    walk format (chunks.flatMap Chunk.bytes ++ rest) =
      walk format
        (chunks.flatMap Chunk.bytes ++ rest') := by
  induction chunks generalizing format with
  | nil => exact hSame format
  | cons chunk chunks ih =>
      rw [List.forall_mem_cons] at hWhole
      simp only [List.flatMap_cons, List.append_assoc]
      by_cases hMark : chunk.mark = formatMark
      · have hRoom := hWhole.1 hMark
        rcases Format.exists_isHeldBy hRoom with
          ⟨found, hHeld⟩
        have hBehind :
            ∀ more, found.IsHeldBy (chunk.padded ++ more) := by
          intro more
          rw [Chunk.padded, List.append_assoc]
          exact (Format.isHeldBy_append_iff hRoom).mpr hHeld
        rw [walk_chunk_of_isHeldBy format hMark (hBehind _),
          walk_chunk_of_isHeldBy format hMark (hBehind _)]
        exact ih hWhole.2 (some found)
      · rw [walk_chunk_of_ne _ _ hMark,
          walk_chunk_of_ne _ _ hMark]
        exact ih hWhole.2 format

------------------------------------------------------------
-- Where a Walk Ends
------------------------------------------------------------

/- Bytes that begin with a header and its body. -/
theorem exists_chunk_append
    {mark : Bytes}
    (hMark : mark.length = 4)
    (hOther : mark ≠ dataMark)
    (hRoom : stride length ≤ body.length) :
    ∃ chunk : Chunk,
      chunk.mark = mark ∧
        mark ++ (Bytes.word32 length ++ body) =
          chunk.bytes ++ body.drop (stride length) := by
  rcases Chunk.exists_padded hMark hOther hRoom with
    ⟨chunk, rfl, rfl, hPadded⟩
  refine ⟨chunk, rfl, ?_⟩
  rw [chunk.bytes_append, hPadded, List.take_append_drop]

theorem header_eq
    (a b c d e f g h : UInt8)
    (body : Bytes) :
    a :: b :: c :: d :: e :: f :: g :: h :: body =
      [a, b, c, d] ++
        (Bytes.word32 (Bytes.toWord32 e f g h) ++ body) := by
  rw [Bytes.word32_toWord32]
  rfl

/- A walk that is led behind the bytes finds no samples. -/
theorem walk_drop_of_lt
    (format : Option Format)
    (hBeyond : body.length < stride length) :
    walk format (body.drop (stride length)) =
      .error .noData := by
  rw [List.drop_eq_nil_of_le hBeyond.le, walk]
  simp

/-
  Bytes are chunks up to the samples, up to a format chunk
  that the end cuts short, or up to where no chunk is left.
-/
def Splits
    (format : Option Format)
    (bytes : Bytes) : Prop :=
  ∃ (chunks : List Chunk) (tail : Bytes),
    bytes = chunks.flatMap Chunk.bytes ++ tail ∧
      ((∃ length rest,
        tail = dataMark ++ (Bytes.word32 length ++ rest)) ∨
      (∃ length rest,
        tail = formatMark ++ (Bytes.word32 length ++ rest) ∧
          rest.length < 16) ∨
      walk format bytes = .error .noData)

/- A header in front of bytes that are split. -/
theorem Splits.behind
    {format' : Option Format}
    {mark bytes : Bytes}
    (hMark : mark.length = 4)
    (hOther : mark ≠ dataMark)
    (hBytes : bytes = mark ++ (Bytes.word32 length ++ body))
    (hWalk :
      walk format bytes =
        walk format' (body.drop (stride length)))
    (hSplits : Splits format' (body.drop (stride length))) :
    Splits format bytes := by
  by_cases hRoom : stride length ≤ body.length
  · rcases exists_chunk_append hMark hOther hRoom with
      ⟨chunk, -, hChunk⟩
    rcases hSplits with ⟨chunks, tail, hTail, hEnd⟩
    refine ⟨chunk :: chunks, tail, ?_, ?_⟩
    · rw [hBytes, hChunk, List.flatMap_cons,
        List.append_assoc, ← hTail]
    · rwa [hWalk]
  · refine ⟨[], bytes, rfl, Or.inr (Or.inr ?_)⟩
    rw [hWalk]
    exact walk_drop_of_lt format' (not_le.mp hRoom)

/- All bytes are split by the walk over them. -/
theorem splits
    (format : Option Format)
    (bytes : Bytes) :
    Splits format bytes := by
  induction format, bytes using walk.induct with
  | case1 format a b c d e f g h body mark hMark hNone =>
      have hHeader := header_eq a b c d e f g h body
      change [a, b, c, d] = formatMark at hMark
      rw [hMark] at hHeader
      rw [Format.readFormat?_eq_none_iff] at hNone
      exact ⟨[], _, rfl,
        Or.inr (Or.inl ⟨_, body, hHeader, hNone⟩)⟩
  | case2 format a b c d e f g h body mark length hMark found
      hFound ih =>
      have hHeader := header_eq a b c d e f g h body
      change [a, b, c, d] = formatMark at hMark
      rw [hMark] at hHeader
      apply Splits.behind rfl (by decide) hHeader _ ih
      rw [hHeader]
      exact walk_formatMark format _ hFound
  | case3 format a b c d e f g h body mark hMark hData =>
      have hHeader := header_eq a b c d e f g h body
      change [a, b, c, d] = dataMark at hData
      rw [hData] at hHeader
      exact ⟨[], _, rfl, Or.inl ⟨_, body, hHeader⟩⟩
  | case4 format a b c d e f g h body mark length hMark hData
      ih =>
      have hHeader := header_eq a b c d e f g h body
      apply Splits.behind rfl hData hHeader _ ih
      rw [hHeader]
      exact walk_otherMark format _ body rfl hMark hData
  | case5 format bytes hNone =>
      refine ⟨[], _, rfl, Or.inr (Or.inr ?_)⟩
      rw [walk]
      exact hNone

------------------------------------------------------------
-- Files of Chunks
------------------------------------------------------------

/- A file of chunks, of samples, and of what is behind. -/
def ofChunks
    (size : UInt32)
    (chunks : List Chunk)
    (length : UInt32)
    (rest : Bytes) : Bytes :=
  riffMark ++ (Bytes.word32 size ++ (waveMark ++
    (chunks.flatMap Chunk.bytes ++
      (dataMark ++ (Bytes.word32 length ++ rest)))))

theorem read_ofChunks
    (size : UInt32)
    (chunks : List Chunk)
    (length : UInt32)
    (rest : Bytes) :
    read (ofChunks size chunks length rest) =
      walk none
        (chunks.flatMap Chunk.bytes ++
          (dataMark ++ (Bytes.word32 length ++ rest))) :=
  read_riffMark size _

theorem le_length_of_waveMark
    {bytes : Bytes}
    (hWave : (bytes.drop 8).take 4 = waveMark) :
    12 ≤ bytes.length := by
  have hLength := congrArg List.length hWave
  rw [List.length_take, List.length_drop] at hLength
  change min 4 (bytes.length - 8) = 4 at hLength
  omega

/- What stands in front of the chunks of a file. -/
theorem read_cases (bytes : Bytes) :
    read bytes = .error .noMagic ∨
      ∃ size chunks,
        bytes =
          riffMark ++ (Bytes.word32 size ++
            (waveMark ++ chunks)) := by
  by_cases hMarks :
      bytes.take 4 = riffMark ∧
        (bytes.drop 8).take 4 = waveMark
  · right
    have hLength := le_length_of_waveMark hMarks.2
    have hWord : ((bytes.drop 4).take 4).length = 4 := by
      rw [List.length_take, List.length_drop]
      omega
    rcases Bytes.exists_word32 hWord with ⟨size, hSize⟩
    refine ⟨size, bytes.drop 12, ?_⟩
    have hTail := List.take_append_drop 4 (bytes.drop 8)
    have hMiddle := List.take_append_drop 4 (bytes.drop 4)
    have hWhole := List.take_append_drop 4 bytes
    rw [List.drop_drop] at hTail hMiddle
    rw [← hMarks.1, ← hMarks.2, ← hSize, hTail, hMiddle,
      hWhole]
  · exact Or.inl (if_neg hMarks)

------------------------------------------------------------
-- The Last Format Chunk
------------------------------------------------------------

namespace Chunk

/- The last of some chunks that gives a format. -/
def lastFormat? (chunks : List Chunk) : Option Chunk :=
  chunks.reverse.find? fun chunk => chunk.mark = formatMark

/- A format chunk without another one behind it. -/
structure IsLast
    (chunk : Chunk)
    (after : List Chunk) : Prop where
  mark_eq : chunk.mark = formatMark
  others : ∀ other ∈ after, other.mark ≠ formatMark

theorem lastFormat?_eq_none_iff :
    lastFormat? chunks = none ↔
      ∀ chunk ∈ chunks, chunk.mark ≠ formatMark := by
  simp [lastFormat?, List.find?_eq_none]

/- The last format chunk and the chunks around it. -/
theorem lastFormat?_eq_some_iff :
    lastFormat? chunks = some chunk ↔
      ∃ before after,
        chunks = before ++ chunk :: after ∧
          chunk.IsLast after := by
  rw [lastFormat?, List.find?_eq_some_iff_append]
  constructor
  · rintro ⟨hMark, after, before, hChunks, hOthers⟩
    refine ⟨before.reverse, after.reverse, ?_, ?_⟩
    · rw [← List.reverse_reverse chunks, hChunks]
      simp
    · refine ⟨of_decide_eq_true hMark, ?_⟩
      intro other hOther
      simpa using hOthers other (List.mem_reverse.mp hOther)
  · rintro ⟨before, after, rfl, hLast⟩
    refine ⟨decide_eq_true hLast.mark_eq, after.reverse,
      before.reverse, by simp, ?_⟩
    intro other hOther
    simpa using
      hLast.others other (List.mem_reverse.mp hOther)

/- All that stands behind the header of a chunk. -/
def behind
    (chunk : Chunk)
    (after : List Chunk)
    (length : UInt32)
    (rest : Bytes) : Bytes :=
  chunk.padded ++
    (after.flatMap bytes ++
      (dataMark ++ (Bytes.word32 length ++ rest)))

/- A format chunk is a header and all that is behind. -/
theorem flatMap_append_behind
    (before after : List Chunk)
    (length : UInt32)
    (rest : Bytes)
    (hMark : chunk.mark = formatMark) :
    (before ++ chunk :: after).flatMap bytes ++
        (dataMark ++ (Bytes.word32 length ++ rest)) =
      before.flatMap bytes ++
        (formatMark ++
          (Bytes.word32 chunk.size ++
            chunk.behind after length rest)) := by
  rw [List.flatMap_append, List.flatMap_cons,
    List.append_assoc, List.append_assoc,
    chunk.bytes_append, hMark, behind]

end Chunk

/-
  What is read of a file of chunks: the last format chunk
  counts, if there are 16 bytes behind its header.
-/
theorem read_ofChunks_cases
    (size : UInt32)
    (chunks : List Chunk)
    (length : UInt32)
    (rest : Bytes) :
    (Chunk.lastFormat? chunks = none ∧
        read (ofChunks size chunks length rest) =
          .error .dataBeforeFormat) ∨
      ∃ before chunk after,
        chunks = before ++ chunk :: after ∧
          chunk.IsLast after ∧
          ((∃ found : Format,
            found.IsHeldBy
                (chunk.behind after length rest) ∧
              read (ofChunks size chunks length rest) =
                conclude (some found) length) ∨
          (chunk.behind after length rest).length < 16 ∧
            read (ofChunks size chunks length rest) =
              .error .shortFormat) := by
  rw [read_ofChunks]
  cases hFind : Chunk.lastFormat? chunks with
  | none =>
      rw [Chunk.lastFormat?_eq_none_iff] at hFind
      refine Or.inl ⟨rfl, ?_⟩
      rw [walk_chunks_of_ne _ _ hFind, walk_dataMark,
        conclude]
  | some chunk =>
      rcases Chunk.lastFormat?_eq_some_iff.mp hFind with
        ⟨before, after, rfl, hLast⟩
      refine Or.inr ⟨before, chunk, after, rfl, hLast, ?_⟩
      by_cases hRoom :
          16 ≤ (chunk.behind after length rest).length
      · rcases Format.exists_isHeldBy hRoom with
          ⟨found, hHeld⟩
        refine Or.inl ⟨found, hHeld, ?_⟩
        rw [walk_chunks_of_last none before hLast.mark_eq
          hLast.others hHeld, walk_dataMark]
      · refine Or.inr ⟨not_le.mp hRoom, ?_⟩
        rw [Chunk.flatMap_append_behind before after length
          rest hLast.mark_eq]
        exact walk_chunks_short none before chunk.size
          (not_le.mp hRoom)

variable {bytes : Bytes}

/- When a file is read, and what is read of it. -/
theorem read_eq_ok_iff
    {info : WaveInfo} :
    read bytes = .ok info ↔
      ∃ size before chunk after length rest,
        ∃ format : Format,
          bytes =
              ofChunks size (before ++ chunk :: after)
                length rest ∧
            chunk.IsLast after ∧
            format.IsHeldBy
              (chunk.behind after length rest) ∧
            info = format.info length ∧
            info.byteRate < 2 ^ 32 := by
  constructor
  · intro hRead
    rcases read_cases bytes with hMagic | ⟨size, bytes, rfl⟩
    · rw [hMagic] at hRead
      cases hRead
    · rcases splits none bytes with
        ⟨chunks, tail, rfl,
          ⟨length, rest, rfl⟩ |
          ⟨length, rest, rfl, hShort⟩ | hNone⟩
      · rcases read_ofChunks_cases size chunks length rest
          with ⟨-, hError⟩ |
            ⟨before, chunk, after, rfl, hLast,
              ⟨found, hHeld, hFound⟩ | ⟨-, hError⟩⟩
        · cases hError.symm.trans hRead
        · exact ⟨size, before, chunk, after, length, rest,
            found, rfl, hLast, hHeld,
            conclude_eq_ok_iff.mp (hFound.symm.trans hRead)⟩
        · cases hError.symm.trans hRead
      · rw [read_riffMark,
          walk_chunks_short none chunks length hShort]
          at hRead
        cases hRead
      · rw [read_riffMark, hNone] at hRead
        cases hRead
  · rintro ⟨size, before, chunk, after, length, rest,
      format, rfl, hLast, hHeld, hInfo⟩
    rw [read_ofChunks,
      walk_chunks_of_last none before hLast.mark_eq
        hLast.others hHeld,
      walk_dataMark]
    exact conclude_eq_ok_iff.mpr hInfo

/- When a format chunk is too short to be read. -/
theorem read_eq_shortFormat_iff :
    read bytes = .error .shortFormat ↔
      ∃ size chunks length body,
        bytes =
            riffMark ++ (Bytes.word32 size ++ (waveMark ++
              (List.flatMap Chunk.bytes chunks ++
                (formatMark ++
                  (Bytes.word32 length ++ body))))) ∧
          body.length < 16 := by
  constructor
  · intro hRead
    rcases read_cases bytes with hMagic | ⟨size, bytes, rfl⟩
    · rw [hMagic] at hRead
      cases hRead
    · rcases splits none bytes with
        ⟨chunks, tail, rfl,
          ⟨length, rest, rfl⟩ |
          ⟨length, rest, rfl, hShort⟩ | hNone⟩
      · rcases read_ofChunks_cases size chunks length rest
          with ⟨-, hError⟩ |
            ⟨before, chunk, after, rfl, hLast,
              ⟨found, -, hFound⟩ | ⟨hShort, -⟩⟩
        · cases hError.symm.trans hRead
        · have hFault :=
            (conclude_eq_error_iff.mp
              (hFound.symm.trans hRead)).1
          cases hFault
        · refine ⟨size, before, chunk.size, _, ?_, hShort⟩
          rw [Chunk.flatMap_append_behind before after length
            rest hLast.mark_eq]
      · exact ⟨size, chunks, length, rest, rfl, hShort⟩
      · rw [read_riffMark, hNone] at hRead
        cases hRead
  · rintro ⟨size, chunks, length, body, rfl, hShort⟩
    rw [read_riffMark]
    exact walk_chunks_short none chunks length hShort

/-
  The format of a file stands in the first 16 bytes behind
  the header of its last format chunk.  They are those of
  the chunk exactly if the chunk has so many.  A format chunk
  is refused exactly if the file ends before they do,
  whatever length the chunk declares.
-/
theorem read_takes_format_behind_header
    (bytes : Bytes) :
    (∀ info,
      read bytes = .ok info ↔
        ∃ size before chunk after length rest,
          ∃ format : Format,
            bytes =
                ofChunks size (before ++ chunk :: after)
                  length rest ∧
              chunk.IsLast after ∧
              format.IsHeldBy
                (chunk.behind after length rest) ∧
              (format.IsHeldBy chunk.body ↔
                16 ≤ chunk.body.length) ∧
              info = format.info length ∧
              info.byteRate < 2 ^ 32) ∧
      (read bytes = .error .shortFormat ↔
        ∃ size chunks length body,
          bytes =
              riffMark ++ (Bytes.word32 size ++ (waveMark ++
                (List.flatMap Chunk.bytes chunks ++
                  (formatMark ++
                    (Bytes.word32 length ++ body))))) ∧
            body.length < 16) := by
  refine ⟨fun info => ?_, read_eq_shortFormat_iff⟩
  rw [read_eq_ok_iff]
  constructor
  · rintro ⟨size, before, chunk, after, length, rest,
      format, rfl, hLast, hHeld, hInfo⟩
    have hBody := hHeld
    rw [Chunk.behind, Chunk.padded, List.append_assoc]
      at hBody
    exact ⟨size, before, chunk, after, length, rest, format,
      rfl, hLast, hHeld, hBody.iff_le_length, hInfo⟩
  · rintro ⟨size, before, chunk, after, length, rest,
      format, rfl, hLast, hHeld, -, hInfo⟩
    exact ⟨size, before, chunk, after, length, rest, format,
      rfl, hLast, hHeld, hInfo⟩

/- A format chunk with a body. -/
def Chunk.ofFormat
    (body : Bytes)
    (hBody : body.length < 2 ^ 32) : Chunk where
  mark := formatMark
  body := body
  padding := 0
  length_mark := rfl
  mark_ne := by decide
  length_body := hBody

/- A format chunk that does not give the size of a sample. -/
def Chunk.withoutBits : Chunk :=
  .ofFormat
    (Bytes.word16 1 ++ Bytes.word16 1 ++
      Bytes.word32 8000 ++ Bytes.word32 16000 ++
      Bytes.word16 2)
    (by decide)

/-
  The size of a sample is taken from the name of the chunk
  behind a format chunk that is too short for it.
-/
theorem read_format_outside_chunk :
    Chunk.withoutBits.body.length = 14 ∧
      read
          (ofChunks 38 [Chunk.withoutBits] 4 [0, 0, 0, 0]) =
        .ok ⟨1, 8000, Bytes.toWord16 0x64 0x61, 4⟩ := by
  decide +kernel

end Wave

end Slideshow

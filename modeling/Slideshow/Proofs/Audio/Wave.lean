import Mathlib.Algebra.Group.Nat.Defs
import Mathlib.Data.List.Basic
import Slideshow.Audio.Wave

/-
  This file proves that the facts of a WAVE file can be read
  back, for all samples and rates that a file can hold.

  The words of a file are written and read byte by byte
  (`Bytes.word32At?_append`), so each field is found again
  behind what stands in front of it.  A walk over the chunks
  takes one step for the format and one for the samples.
  The second step checks the byte rate against the same
  bound as the writer, so the reader refuses no file that
  was written.

  Key definitions include:
    * `Wave.Fits`
    * `Wave.Holds`

  Main results include:
    * `Bytes.toWord32_word32`
    * `Wave.ofSamples_eq_ok_iff`
    * `Wave.read_header_append`
    * `Wave.ofSamples_holds`
-/

namespace Slideshow

------------------------------------------------------------
-- Words in Bytes
------------------------------------------------------------

namespace Bytes

theorem or_shiftLeft_eq_add
    {m i : Nat}
    (n : Nat)
    (hLt : m < 2 ^ i) :
    m ||| n <<< i = m + n * 2 ^ i := by
  rw [Nat.or_comm, ← Nat.shiftLeft_add_eq_or_of_lt hLt,
    Nat.shiftLeft_eq, Nat.add_comm]

/- The value of two bytes. -/
theorem toNat_toWord16 (a b : UInt8) :
    (toWord16 a b).toNat = a.toNat + b.toNat * 2 ^ 8 := by
  have hA := a.toNat_lt
  have hB := b.toNat_lt
  have hShift : b.toNat <<< 8 < 2 ^ 16 := by
    rw [Nat.shiftLeft_eq]
    omega
  rw [toWord16, UInt16.toNat_or, UInt16.toNat_shiftLeft,
    UInt8.toNat_toUInt16, UInt8.toNat_toUInt16]
  show a.toNat ||| b.toNat <<< 8 % 2 ^ 16 = _
  rw [Nat.mod_eq_of_lt hShift, or_shiftLeft_eq_add _ hA]

/- A byte moves up within a word without loss. -/
theorem toNat_shiftLeft_mod
    {k : Nat}
    (b : UInt8)
    (hLe : k ≤ 24) :
    b.toNat <<< k % 2 ^ 32 = b.toNat <<< k := by
  apply Nat.mod_eq_of_lt
  rw [Nat.shiftLeft_eq]
  calc b.toNat * 2 ^ k
      < 2 ^ 8 * 2 ^ k :=
        Nat.mul_lt_mul_of_pos_right b.toNat_lt
          (Nat.two_pow_pos k)
    _ = 2 ^ (8 + k) := (Nat.pow_add 2 8 k).symm
    _ ≤ 2 ^ 32 :=
        Nat.pow_le_pow_right (by omega) (by omega)

/- The value of four bytes. -/
theorem toNat_toWord32 (a b c d : UInt8) :
    (toWord32 a b c d).toNat =
      a.toNat + b.toNat * 2 ^ 8 + c.toNat * 2 ^ 16 +
        d.toNat * 2 ^ 24 := by
  have hA := a.toNat_lt
  have hB := b.toNat_lt
  have hC := c.toNat_lt
  simp only [toWord32, UInt32.toNat_or,
    UInt32.toNat_shiftLeft, UInt8.toNat_toUInt32]
  show a.toNat ||| b.toNat <<< 8 % 2 ^ 32 |||
      c.toNat <<< 16 % 2 ^ 32 |||
      d.toNat <<< 24 % 2 ^ 32 = _
  rw [toNat_shiftLeft_mod b (by omega),
    toNat_shiftLeft_mod c (by omega),
    toNat_shiftLeft_mod d (by omega),
    or_shiftLeft_eq_add b.toNat hA,
    or_shiftLeft_eq_add c.toNat (by omega),
    or_shiftLeft_eq_add d.toNat (by omega)]

theorem toWord16_word16 (w : UInt16) :
    toWord16 w.toUInt8 (w >>> 8).toUInt8 = w := by
  apply UInt16.toNat.inj
  have hWord := w.toNat_lt
  rw [toNat_toWord16]
  simp only [UInt16.toNat_toUInt8, UInt16.toNat_shiftRight]
  show w.toNat % 2 ^ 8 +
      (w.toNat >>> 8) % 2 ^ 8 * 2 ^ 8 = _
  simp only [Nat.shiftRight_eq_div_pow]
  omega

/- The four bytes of a word make up the word. -/
theorem toWord32_word32 (w : UInt32) :
    toWord32 w.toUInt8 (w >>> 8).toUInt8
      (w >>> 16).toUInt8 (w >>> 24).toUInt8 = w := by
  apply UInt32.toNat.inj
  have hWord := w.toNat_lt
  rw [toNat_toWord32]
  simp only [UInt32.toNat_toUInt8, UInt32.toNat_shiftRight]
  show w.toNat % 2 ^ 8 +
      (w.toNat >>> 8) % 2 ^ 8 * 2 ^ 8 +
      (w.toNat >>> 16) % 2 ^ 8 * 2 ^ 16 +
      (w.toNat >>> 24) % 2 ^ 8 * 2 ^ 24 = _
  simp only [Nat.shiftRight_eq_div_pow]
  omega

theorem word16_toWord16 (a b : UInt8) :
    word16 (toWord16 a b) = [a, b] := by
  have hWord :=
    congrArg UInt16.toNat (toWord16_word16 (toWord16 a b))
  have hLow := (toWord16 a b).toUInt8.toNat_lt
  have hA := a.toNat_lt
  rw [toNat_toWord16, toNat_toWord16 a b] at hWord
  rw [word16, List.cons.injEq, List.cons.injEq]
  exact ⟨UInt8.toNat.inj (by omega),
    UInt8.toNat.inj (by omega), rfl⟩

/- The word of four bytes is written as these bytes. -/
theorem word32_toWord32 (a b c d : UInt8) :
    word32 (toWord32 a b c d) = [a, b, c, d] := by
  have hWord :=
    congrArg UInt32.toNat
      (toWord32_word32 (toWord32 a b c d))
  have hFirst := (toWord32 a b c d).toUInt8.toNat_lt
  have hSecond :=
    (toWord32 a b c d >>> 8).toUInt8.toNat_lt
  have hThird :=
    (toWord32 a b c d >>> 16).toUInt8.toNat_lt
  have hA := a.toNat_lt
  have hB := b.toNat_lt
  have hC := c.toNat_lt
  rw [toNat_toWord32, toNat_toWord32 a b c d] at hWord
  simp only [word32, List.cons.injEq, and_true]
  exact ⟨UInt8.toNat.inj (by omega),
    UInt8.toNat.inj (by omega),
    UInt8.toNat.inj (by omega),
    UInt8.toNat.inj (by omega)⟩

/- What a two-byte word at an offset is read from. -/
theorem word16At?_eq_some_iff
    {bytes : Bytes}
    {offset : Nat}
    {w : UInt16} :
    bytes.word16At? offset = some w ↔
      (bytes.drop offset).take 2 = word16 w := by
  rw [word16At?]
  split
  · rename_i a b rest hRest
    rw [hRest]
    constructor
    · rintro ⟨⟩
      rw [word16_toWord16]
      rfl
    · intro hTaken
      cases hTaken
      exact congrArg some (toWord16_word16 w)
  · rename_i hNone
    constructor
    · intro hSome
      cases hSome
    · intro hTaken
      have hBytes :=
        List.take_append_drop 2 (bytes.drop offset)
      rw [hTaken] at hBytes
      exact absurd hBytes.symm (hNone _ _ _)

/- What a four-byte word at an offset is read from. -/
theorem word32At?_eq_some_iff
    {bytes : Bytes}
    {offset : Nat}
    {w : UInt32} :
    bytes.word32At? offset = some w ↔
      (bytes.drop offset).take 4 = word32 w := by
  rw [word32At?]
  split
  · rename_i a b c d rest hRest
    rw [hRest]
    constructor
    · rintro ⟨⟩
      rw [word32_toWord32]
      rfl
    · intro hTaken
      cases hTaken
      exact congrArg some (toWord32_word32 w)
  · rename_i hNone
    constructor
    · intro hSome
      cases hSome
    · intro hTaken
      have hBytes :=
        List.take_append_drop 4 (bytes.drop offset)
      rw [hTaken] at hBytes
      exact absurd hBytes.symm (hNone _ _ _ _ _)

theorem exists_word16
    {bytes : Bytes}
    (hLength : bytes.length = 2) :
    ∃ w, bytes = word16 w := by
  rcases List.length_eq_two.mp hLength with ⟨a, b, rfl⟩
  exact ⟨toWord16 a b, (word16_toWord16 a b).symm⟩

theorem exists_word32
    {bytes : Bytes}
    (hLength : bytes.length = 4) :
    ∃ w, bytes = word32 w := by
  match bytes, hLength with
  | [a, b, c, d], _ =>
      exact ⟨toWord32 a b c d,
        (word32_toWord32 a b c d).symm⟩

theorem word16At?_append
    (before after : Bytes)
    (w : UInt16) :
    word16At? (before ++ (word16 w ++ after))
      before.length = some w := by
  rw [word16At?, List.drop_left]
  exact congrArg some (toWord16_word16 w)

/- A four-byte word is read where it was written. -/
theorem word32At?_append
    (before after : Bytes)
    (w : UInt32) :
    word32At? (before ++ (word32 w ++ after))
      before.length = some w := by
  rw [word32At?, List.drop_left]
  exact congrArg some (toWord32_word32 w)

end Bytes

------------------------------------------------------------
-- Files
------------------------------------------------------------

namespace Wave

variable {samples file : Bytes}
variable {rate : UInt32}

/-
  Samples and a rate that the fields of a file can hold: the
  size of the file and the byte rate fit 32 bits.
-/
structure Fits
    (samples : Bytes)
    (rate : UInt32) : Prop where
  length_le : samples.length ≤ 2 ^ 32 - 1 - 36
  rate_le : rate.toNat ≤ 2 ^ 31 - 1

/- What a file says of the samples in it. -/
structure Holds
    (samples : Bytes)
    (rate : UInt32)
    (file : Bytes) : Prop where
  length_eq : file.length = 44 + samples.length
  samples_eq : file.drop 44 = samples
  size_eq :
    (file.word32At? 4).map UInt32.toNat =
      some (file.length - 8)
  byteRate_eq :
    (file.word32At? 28).map UInt32.toNat =
      some (2 * rate.toNat)
  read_eq :
    ∃ length : UInt32,
      length.toNat = samples.length ∧
        read file = .ok ⟨1, rate, 16, length⟩

/- Samples and a rate that fit are all that is written. -/
theorem ofSamples_eq_ok_iff :
    ofSamples samples rate = .ok file ↔
      Fits samples rate ∧
        file =
          header rate samples.length.toUInt32 ++ samples
    := by
  have hSize : UInt32.size = 2 ^ 32 := rfl
  rw [ofSamples]
  by_cases hLong :
      UInt32.size - 1 - 36 < samples.length
  · rw [if_pos hLong]
    constructor
    · intro hError
      cases hError
    · rintro ⟨hFits, _⟩
      have hLength := hFits.length_le
      omega
  · rw [if_neg hLong]
    by_cases hFast : UInt32.size ≤ rate.toNat * 2
    · rw [if_pos hFast]
      constructor
      · intro hError
        cases hError
      · rintro ⟨hFits, _⟩
        have hRate := hFits.rate_le
        omega
    · rw [if_neg hFast, Except.ok.injEq]
      constructor
      · rintro rfl
        exact ⟨⟨by omega, by omega⟩, rfl⟩
      · rintro ⟨_, rfl⟩
        rfl

/- A format chunk sets the format for what follows it. -/
theorem walk_formatMark
    {found : Format}
    {body : Bytes}
    (format : Option Format)
    (length : UInt32)
    (hFound : readFormat? body = some found) :
    walk format
        (formatMark ++ (Bytes.word32 length ++ body)) =
      walk (some found) (body.drop (stride length)) := by
  simp only [formatMark, Bytes.word32, List.cons_append,
    List.nil_append]
  rw [walk, Bytes.toWord32_word32]
  simp only [formatMark, if_true, hFound]

/- A data chunk ends the walk. -/
theorem walk_dataMark
    (format : Option Format)
    (length : UInt32)
    (body : Bytes) :
    walk format
        (dataMark ++ (Bytes.word32 length ++ body)) =
      conclude format length := by
  have hOther : dataMark ≠ formatMark := by decide
  simp only [dataMark, Bytes.word32, List.cons_append,
    List.nil_append]
  rw [walk, Bytes.toWord32_word32]
  exact (if_neg hOther).trans (if_pos rfl)

section Header

variable (rate length : UInt32)
variable (samples : Bytes)

/- The body of the format chunk in a header. -/
def formatBody : Bytes :=
  Bytes.word16 1 ++ Bytes.word16 1 ++ Bytes.word32 rate ++
    Bytes.word32 (rate * 2) ++ Bytes.word16 2 ++
    Bytes.word16 16

theorem length_formatBody :
    (formatBody rate).length = 16 :=
  rfl

theorem header_append :
    header rate length ++ samples =
      riffMark ++ (Bytes.word32 (36 + length) ++
        (waveMark ++
          (formatMark ++ (Bytes.word32 16 ++
            (formatBody rate ++
              (dataMark ++
                (Bytes.word32 length ++ samples))))))) := by
  simp only [header, formatBody, List.append_assoc]

theorem length_header : (header rate length).length = 44 := by
  simp [header, riffMark, waveMark, formatMark, dataMark,
    Bytes.word16, Bytes.word32]

theorem word32At?_header_size :
    Bytes.word32At? (header rate length ++ samples) 4 =
      some (36 + length) := by
  rw [header_append]
  exact Bytes.word32At?_append riffMark _ _

/- Behind the rate stands the byte rate. -/
theorem word32At?_header_byteRate :
    Bytes.word32At? (header rate length ++ samples) 28 =
      some (rate * 2) := by
  have hSplit :
      header rate length ++ samples =
        (riffMark ++ Bytes.word32 (36 + length) ++
          waveMark ++ formatMark ++ Bytes.word32 16 ++
          Bytes.word16 1 ++ Bytes.word16 1 ++
          Bytes.word32 rate) ++
        (Bytes.word32 (rate * 2) ++
          (Bytes.word16 2 ++ Bytes.word16 16 ++ dataMark ++
            Bytes.word32 length ++ samples)) := by
    simp only [header, List.append_assoc]
  rw [hSplit]
  exact Bytes.word32At?_append _ _ _

/- The format that a format body gives. -/
theorem readFormat?_formatBody
    (after : Bytes) :
    readFormat? (formatBody rate ++ after) =
      some ⟨1, rate, 16⟩ := by
  have hChannels :
      (formatBody rate ++ after).word16At? 2 = some 1 := by
    simp only [formatBody, List.append_assoc]
    exact Bytes.word16At?_append (Bytes.word16 1) _ _
  have hRate :
      (formatBody rate ++ after).word32At? 4 =
        some rate := by
    simp only [formatBody, List.append_assoc]
    exact Bytes.word32At?_append
      (Bytes.word16 1 ++ Bytes.word16 1) _ _
  have hBits :
      (formatBody rate ++ after).word16At? 14 =
        some 16 := by
    rw [formatBody, List.append_assoc]
    exact Bytes.word16At?_append
      (Bytes.word16 1 ++ Bytes.word16 1 ++
        Bytes.word32 rate ++ Bytes.word32 (rate * 2) ++
        Bytes.word16 2) after 16
  rw [readFormat?, hChannels, hRate, hBits]
  rfl

theorem read_riffMark
    (size : UInt32)
    (chunks : Bytes) :
    read (riffMark ++ (Bytes.word32 size ++
        (waveMark ++ chunks))) =
      walk none chunks :=
  if_pos ⟨rfl, rfl⟩

/-
  The facts in a header are read back if the byte rate fits
  32 bits.
-/
theorem read_header_append
    (hRate : rate.toNat * 2 < 2 ^ 32) :
    read (header rate length ++ samples) =
      .ok ⟨1, rate, 16, length⟩ := by
  have hBody :
      (formatBody rate ++ (dataMark ++
          (Bytes.word32 length ++ samples))).drop
            (stride 16) =
        dataMark ++ (Bytes.word32 length ++ samples) :=
    List.drop_left' (length_formatBody rate)
  have hByteRate :
      (⟨1, rate, 16, length⟩ : WaveInfo).byteRate =
        rate.toNat * 2 := by
    simp [WaveInfo.byteRate]
  rw [header_append, read_riffMark,
    walk_formatMark none 16 (readFormat?_formatBody rate _),
    hBody, walk_dataMark, conclude]
  simp only [hByteRate]
  exact if_pos hRate

end Header

/- The header of samples that fit says what they are. -/
theorem holds_header_append
    {length : UInt32}
    (hFits : Fits samples rate)
    (hLength : length.toNat = samples.length) :
    Holds samples rate (header rate length ++ samples) := by
  have hLengthLe := hFits.length_le
  have hRateLe := hFits.rate_le
  have hSize :
      (36 + length).toNat = 36 + samples.length := by
    rw [UInt32.toNat_add, hLength]
    show (36 + samples.length) % 2 ^ 32 = _
    exact Nat.mod_eq_of_lt (by omega)
  have hByteRate : (rate * 2).toNat = 2 * rate.toNat := by
    rw [UInt32.toNat_mul]
    show rate.toNat * 2 % 2 ^ 32 = _
    omega
  have hFile :
      (header rate length ++ samples).length =
        44 + samples.length := by
    rw [List.length_append, length_header]
  have hRest :
      44 + samples.length - 8 = 36 + samples.length := by
    omega
  exact
    { length_eq := hFile
      samples_eq :=
        List.drop_left' (length_header rate length)
      size_eq := by
        rw [word32At?_header_size, Option.map_some, hSize,
          hFile, hRest]
      byteRate_eq := by
        rw [word32At?_header_byteRate, Option.map_some,
          hByteRate]
      read_eq :=
        ⟨length, hLength,
          read_header_append rate length samples
            (by omega)⟩ }

theorem holds_of_ofSamples
    (hFile : ofSamples samples rate = .ok file) :
    Holds samples rate file := by
  rcases ofSamples_eq_ok_iff.mp hFile with ⟨hFits, rfl⟩
  have hLength := hFits.length_le
  exact holds_header_append hFits
    (Nat.mod_eq_of_lt (by omega))

/-
  A file can be written exactly if the samples and the rate
  fit its fields, and every file that is written holds the
  samples behind the header and gives its sizes, its rate
  and its format as they are.
-/
theorem ofSamples_holds
    (samples : Bytes)
    (rate : UInt32) :
    ((∃ file, ofSamples samples rate = .ok file) ↔
      samples.length ≤ 2 ^ 32 - 1 - 36 ∧
        rate.toNat ≤ 2 ^ 31 - 1) ∧
    ∀ file, ofSamples samples rate = .ok file →
      Holds samples rate file := by
  constructor
  · constructor
    · rintro ⟨file, hFile⟩
      have hFits := (ofSamples_eq_ok_iff.mp hFile).1
      exact ⟨hFits.length_le, hFits.rate_le⟩
    · rintro ⟨hLength, hRate⟩
      exact ⟨_, ofSamples_eq_ok_iff.mpr
        ⟨⟨hLength, hRate⟩, rfl⟩⟩
  · intro file hFile
    rcases ofSamples_eq_ok_iff.mp hFile with ⟨hFits, rfl⟩
    have hLength := hFits.length_le
    exact holds_header_append hFits
      (Nat.mod_eq_of_lt (by omega))

end Wave

end Slideshow

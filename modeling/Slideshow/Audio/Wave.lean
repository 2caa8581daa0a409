import Slideshow.Error
import Slideshow.Text.Utf8

/-
  This file defines WAVE files: the file that holds given
  samples, and the facts that a reader takes from the chunks
  in front of the samples.

  Key definitions include:
    * `Bytes.word16`
    * `Bytes.word32`
    * `WaveInfo`
    * `WaveInfo.read`
    * `Wave.ofSamples`
-/

namespace Slideshow

------------------------------------------------------------
-- Words in Bytes
------------------------------------------------------------

namespace Bytes

/- The two bytes of a word, the lower one first. -/
def word16 (w : UInt16) : Bytes :=
  [w.toUInt8, (w >>> 8).toUInt8]

/- The four bytes of a word, the lowest one first. -/
def word32 (w : UInt32) : Bytes :=
  [w.toUInt8, (w >>> 8).toUInt8, (w >>> 16).toUInt8,
    (w >>> 24).toUInt8]

/- The word of two bytes. -/
def toWord16 (a b : UInt8) : UInt16 :=
  a.toUInt16 ||| (b.toUInt16 <<< 8)

/- The word of four bytes. -/
def toWord32 (a b c d : UInt8) : UInt32 :=
  a.toUInt32 ||| (b.toUInt32 <<< 8) |||
    (c.toUInt32 <<< 16) ||| (d.toUInt32 <<< 24)

/- Read a two-byte word at an offset. -/
def word16At?
    (bytes : Bytes)
    (offset : Nat) : Option UInt16 :=
  match bytes.drop offset with
  | a :: b :: _ => some (toWord16 a b)
  | _ => none

/- Read a four-byte word at an offset. -/
def word32At?
    (bytes : Bytes)
    (offset : Nat) : Option UInt32 :=
  match bytes.drop offset with
  | a :: b :: c :: d :: _ => some (toWord32 a b c d)
  | _ => none

end Bytes

------------------------------------------------------------
-- Facts
------------------------------------------------------------

/- The format of the samples and their size in bytes. -/
structure WaveInfo where
  channels : UInt16
  sampleRate : UInt32
  bitsPerSample : UInt16
  dataLength : UInt32
deriving DecidableEq, Repr

namespace WaveInfo

/- The bytes that one second takes. -/
def byteRate (info : WaveInfo) : Nat :=
  info.sampleRate.toNat * info.channels.toNat *
    (info.bitsPerSample.toNat / 8)

/- The playing time; none at all without a byte rate. -/
def seconds (info : WaveInfo) : Float :=
  if info.byteRate = 0 then 0.0
  else
    info.dataLength.toFloat / Float.ofNat info.byteRate

end WaveInfo

------------------------------------------------------------
-- Chunks
------------------------------------------------------------

namespace Wave

/- The mark of a file of chunks. -/
def riffMark : Bytes := [0x52, 0x49, 0x46, 0x46]

/- The mark of sound in a file of chunks. -/
def waveMark : Bytes := [0x57, 0x41, 0x56, 0x45]

/- The name of the chunk that gives the format. -/
def formatMark : Bytes := [0x66, 0x6D, 0x74, 0x20]

/- The name of the chunk that holds the samples. -/
def dataMark : Bytes := [0x64, 0x61, 0x74, 0x61]

/- The format that a format chunk gives. -/
structure Format where
  channels : UInt16
  sampleRate : UInt32
  bitsPerSample : UInt16
deriving DecidableEq, Repr

/- Read a format from the bytes behind a chunk header. -/
def readFormat?
    (body : Bytes) : Option Format := do
  let channels ← body.word16At? 2
  let sampleRate ← body.word32At? 4
  let bitsPerSample ← body.word16At? 14
  return ⟨channels, sampleRate, bitsPerSample⟩

/-
  The facts of a data chunk after a format.  A header can
  only store a byte rate of 32 bits.
-/
def conclude
    (format : Option Format)
    (length : UInt32) : Except WaveFault WaveInfo :=
  match format with
  | none => .error .dataBeforeFormat
  | some f =>
      let info : WaveInfo :=
        ⟨f.channels, f.sampleRate, f.bitsPerSample, length⟩
      if info.byteRate < UInt32.size then .ok info
      else .error .byteRateTooLarge

/- The bytes from a chunk's body to the next chunk. -/
def stride (length : UInt32) : Nat :=
  length.toNat + length.toNat % 2

/-
  Walk over chunks up to the first data chunk.  The last
  format chunk before it counts.
-/
def walk
    (format : Option Format)
    (bytes : Bytes) : Except WaveFault WaveInfo :=
  match bytes with
  | a :: b :: c :: d :: e :: f :: g :: h :: body =>
      let mark := [a, b, c, d]
      let length := Bytes.toWord32 e f g h
      if mark = formatMark then
        match readFormat? body with
        | none => .error .shortFormat
        | some found =>
            walk (some found) (body.drop (stride length))
      else if mark = dataMark then conclude format length
      else walk format (body.drop (stride length))
  | _ => .error .noData
termination_by bytes.length
decreasing_by all_goals simp; omega

/- Read the facts of a file. -/
def read (bytes : Bytes) : Except WaveFault WaveInfo :=
  if bytes.take 4 = riffMark ∧
      (bytes.drop 8).take 4 = waveMark then
    walk none (bytes.drop 12)
  else .error .noMagic

------------------------------------------------------------
-- Files
------------------------------------------------------------

/- The header in front of 16-bit samples of one channel. -/
def header
    (rate length : UInt32) : Bytes :=
  riffMark ++ Bytes.word32 (36 + length) ++ waveMark ++
    formatMark ++ Bytes.word32 16 ++ Bytes.word16 1 ++
    Bytes.word16 1 ++ Bytes.word32 rate ++
    Bytes.word32 (rate * 2) ++ Bytes.word16 2 ++
    Bytes.word16 16 ++ dataMark ++ Bytes.word32 length

/-
  The file of 16-bit samples of one channel.  The sizes in
  the header have 32 bits.
-/
def ofSamples
    (samples : Bytes)
    (rate : UInt32) : Except ValueFault Bytes :=
  if UInt32.size - 1 - 36 < samples.length then
    .error .payloadTooLarge
  else if UInt32.size ≤ rate.toNat * 2 then
    .error (.sampleRateTooHigh rate)
  else
    .ok (header rate samples.length.toUInt32 ++ samples)

end Wave

end Slideshow

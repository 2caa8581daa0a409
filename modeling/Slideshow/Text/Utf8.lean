/-
  This file defines the UTF-8 form of text and its reading,
  strict and lossy.

  Key definitions include:
    * `Bytes`
    * `Utf8.encode`
    * `Utf8.scan`
    * `Utf8.decode?`
    * `Utf8.decodeLossy`
-/

namespace Slideshow

/- The contents of a file or of a stream. -/
abbrev Bytes :=
  List UInt8

namespace Utf8

/- The bytes of a text. -/
def encode (s : String) : Bytes :=
  s.toList.flatMap String.utf8EncodeChar

------------------------------------------------------------
-- Lead Bytes
------------------------------------------------------------

/-
  What a lead byte announces: the number of bytes that
  follow it, the payload it carries itself, and the range
  of the first byte after it.  The range excludes overlong
  forms, surrogates and values beyond the last code point.
-/
structure Lead where
  follow : Nat
  payload : Nat
  low : Nat
  high : Nat

/- Classify a byte as the lead of a character. -/
def lead?
    (b : UInt8) : Option Lead :=
  let n := b.toNat
  if n < 0x80 then some ⟨0, n, 0x80, 0xBF⟩
  else if n < 0xC2 then none
  else if n < 0xE0 then some ⟨1, n - 0xC0, 0x80, 0xBF⟩
  else if n = 0xE0 then some ⟨2, 0, 0xA0, 0xBF⟩
  else if n = 0xED then some ⟨2, 13, 0x80, 0x9F⟩
  else if n < 0xF0 then some ⟨2, n - 0xE0, 0x80, 0xBF⟩
  else if n = 0xF0 then some ⟨3, 0, 0x90, 0xBF⟩
  else if n < 0xF4 then some ⟨3, n - 0xF0, 0x80, 0xBF⟩
  else if n = 0xF4 then some ⟨3, 4, 0x80, 0x8F⟩
  else none

------------------------------------------------------------
-- Scanning
------------------------------------------------------------

/-
  The character in progress: the number of bytes it still
  needs, the value read so far and the range of the next
  byte.
-/
structure Pending where
  missing : Nat
  value : Nat
  low : Nat
  high : Nat

/-
  Start a character at a byte.  The result is what the byte
  completes at once and what stays in progress.
-/
def start
    (b : UInt8) :
    List (Option Char) × Option Pending :=
  match lead? b with
  | none => ([none], none)
  | some lead =>
      if lead.follow = 0 then
        ([some (Char.ofNat lead.payload)], none)
      else
        ([], some
          ⟨lead.follow, lead.payload, lead.low, lead.high⟩)

/-
  Take one more byte.  A byte outside the expected range
  ends the character in progress as one ill-formed piece
  and starts the next one.
-/
def step
    (pending : Option Pending)
    (b : UInt8) :
    List (Option Char) × Option Pending :=
  match pending with
  | none => start b
  | some p =>
      if p.low ≤ b.toNat ∧ b.toNat ≤ p.high then
        let value := p.value * 64 + (b.toNat - 0x80)
        if p.missing ≤ 1 then
          ([some (Char.ofNat value)], none)
        else
          ([], some ⟨p.missing - 1, value, 0x80, 0xBF⟩)
      else
        let next := start b
        (none :: next.1, next.2)

/-
  Read bytes from a state.  Each character appears as
  `some`, and each ill-formed piece as one `none`.
-/
def scanFrom
    (pending : Option Pending) :
    Bytes → List (Option Char)
  | [] =>
      match pending with
      | none => []
      | some _ => [none]
  | b :: bs =>
      let next := step pending b
      next.1 ++ scanFrom next.2 bs

/- Read bytes from the start. -/
def scan (bs : Bytes) : List (Option Char) :=
  scanFrom none bs

/- The text of well-formed bytes. -/
def decode? (bs : Bytes) : Option String :=
  ((scan bs).mapM id).map String.ofList

/-
  The text of any bytes, with the replacement character in
  the place of each ill-formed piece.
-/
def decodeLossy (bs : Bytes) : String :=
  String.ofList
    ((scan bs).map fun c => c.getD '\uFFFD')

end Utf8

end Slideshow

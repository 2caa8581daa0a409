import Slideshow.Text.Utf8

/-
  This file defines the 64-bit hash that names a render
  graph, and the bytes by which texts enter it.

  Key definitions include:
    * `Hash.absorb`
    * `Hash.ofBytes`
    * `Hash.textBytes`
    * `Hash.hex`
-/

namespace Slideshow

namespace Hash

/- The state before anything is absorbed. -/
def basis : UInt64 :=
  0xcbf29ce484222325

/- The multiplier applied after each byte. -/
def prime : UInt64 :=
  0x00000100000001B3

/- Absorb one byte: exclusive or, then multiply. -/
def absorb
    (state : UInt64)
    (b : UInt8) : UInt64 :=
  (state ^^^ b.toUInt64) * prime

/- Absorb bytes from a given state. -/
def absorbAll
    (state : UInt64)
    (bytes : Bytes) : UInt64 :=
  bytes.foldl absorb state

/- The hash of a sequence of bytes. -/
def ofBytes (bytes : Bytes) : UInt64 :=
  absorbAll basis bytes

/-
  The bytes of a text followed by a byte that occurs in no
  text, which keeps neighbouring texts apart.
-/
def textBytes (s : String) : Bytes :=
  Utf8.encode s ++ [0xFF]

/- The eight bytes of a word, the lowest first. -/
def wordBytes (word : UInt64) : Bytes :=
  (List.range 8).map fun i =>
    (word >>> (8 * i).toUInt64).toUInt8

/- A hash as sixteen hexadecimal digits. -/
def hex (state : UInt64) : String :=
  String.ofList
    ((Nat.toDigits 16 state.toNat).leftpad 16 '0')

end Hash

end Slideshow

import Slideshow.Text.Utf8

/-
  This file defines the cyclic checksum of 32 bits that
  stands behind every chunk of a PNG file.

  Key definitions include:
    * `Checksum.step`
    * `Checksum.absorb`
    * `Checksum.ofBytes`
-/

namespace Slideshow

namespace Checksum

/- The polynomial, its lowest power in the highest bit. -/
def polynomial : UInt32 :=
  0xEDB88320

/- Divide by the variable, modulo the polynomial. -/
def step (state : UInt32) : UInt32 :=
  if state &&& 1 = 0 then state >>> 1
  else (state >>> 1) ^^^ polynomial

/- Take up one byte. -/
def absorb
    (state : UInt32)
    (b : UInt8) : UInt32 :=
  step (step (step (step (step (step (step (step
    (state ^^^ b.toUInt32))))))))

/- The checksum of a sequence of bytes. -/
def ofBytes (bytes : Bytes) : UInt32 :=
  (bytes.foldl absorb 0xFFFFFFFF) ^^^ 0xFFFFFFFF

end Checksum

end Slideshow

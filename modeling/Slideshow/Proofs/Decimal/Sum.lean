import Mathlib
import Slideshow.Proofs.Decimal.Exact

/-
  This file proves that a sum of doubles that starts from
  zero starts from its first term, if that is positive.

  The sum of zero and a number has the fields of the number,
  unless that is the negative zero.  A double is made of its
  fields (`Binary.pack_unpack`), so nothing is rounded.  The
  lemma about packing is reached through the whole library
  alone.

  Main results include:
    * `Binary.pack_unpack`
    * `Binary.zero_add_of_pos`
-/

namespace Slideshow

namespace Binary

open Float.Model (UnpackedFloat Format)

/- A double is made of its fields. -/
theorem pack_unpack (x : Float) :
    Float.ofModel (Float.Model.pack x.toModel.unpack) =
      x := by
  have hBits :=
    UnpackedFloat.pack_unpack_of_valid x.toModel.valid
  have hModel :
      Float.Model.pack x.toModel.unpack = x.toModel := by
    unfold Float.Model.pack Float.Model.unpack
    congr
  rw [hModel]

/- The fields of a sum of zero and a number. -/
theorem addFields_zero
    {u : UnpackedFloat}
    (hSign : u ≠ .zero .negative) :
    UnpackedFloat.add Format.binary64 (.zero .positive) u =
      u := by
  cases u with
  | notANumber =>
      rfl
  | infinity s =>
      rfl
  | zero s =>
      cases s with
      | positive =>
          rfl
      | negative =>
          exact absurd rfl hSign
  | finite s m q hPos =>
      rfl

/- Zero and a positive double add up to the double. -/
theorem zero_add_of_pos
    {x : Float}
    (hPos : 0 < x) :
    0 + x = x := by
  have hSign : x.toModel.unpack ≠ .zero .negative := by
    intro hFields
    have hValue : exactValue? x = some 0 := by
      rw [exactValue?, ofFloat_eq_ofUnpacked, hFields]
      exact value?_zero .negative
    exact lt_irrefl (0 : ℚ)
      ((lt_iff exactValue?_zero hValue).mp hPos)
  calc 0 + x
      = Float.ofModel
          (Float.Model.pack
            (UnpackedFloat.add Format.binary64
              (.zero .positive) x.toModel.unpack)) := rfl
    _ = x := by
        rw [addFields_zero hSign, pack_unpack]

end Binary

end Slideshow

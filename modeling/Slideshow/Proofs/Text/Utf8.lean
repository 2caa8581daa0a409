import Mathlib.Tactic.SplitIfs
import Slideshow.Text.Utf8

/-
  This file proves what the bytes of a text are like: they
  determine the text, none of them has all bits set, and
  there are at least as many as characters.

  Main results include:
    * `Utf8.not_mem_encode`
    * `Utf8.encode_injective`
    * `Utf8.length_le_length_encode`
-/

namespace Slideshow

namespace Utf8

/- No byte of a character has all bits set. -/
theorem lt_of_mem_utf8EncodeChar
    {c : Char}
    {b : UInt8}
    (hb : b ∈ String.utf8EncodeChar c) :
    b.toNat < 0xFF := by
  have hByte {n : Nat} (hLt : n < 0xFF) :
      (UInt8.ofNat n).toNat < 0xFF := by
    rwa [UInt8.toNat_ofNat_of_lt'
      (Nat.lt_succ_of_lt hLt)]
  simp only [String.utf8EncodeChar] at hb
  split_ifs at hb with hOne hTwo hThree
  all_goals
    simp only [List.mem_cons, List.not_mem_nil, or_false]
      at hb
  · rw [hb]
    exact hByte (by omega)
  · rcases hb with rfl | rfl
    all_goals exact hByte (by omega)
  · rcases hb with rfl | rfl | rfl
    all_goals exact hByte (by omega)
  · rcases hb with rfl | rfl | rfl | rfl
    all_goals exact hByte (by omega)

/- No byte of a text has all bits set. -/
theorem not_mem_encode (s : String) :
    0xFF ∉ encode s := by
  intro hb
  rcases List.mem_flatMap.mp hb with ⟨c, _, hb⟩
  exact absurd (lt_of_mem_utf8EncodeChar hb) (by decide)

/- A text can be told from its bytes. -/
theorem encode_injective : Function.Injective encode := by
  intro s t hEq
  have hBytes : s.toByteArray = t.toByteArray := by
    rw [← String.utf8Encode_toList,
      ← String.utf8Encode_toList]
    exact congrArg List.toByteArray hEq
  exact String.toByteArray_inj.mp hBytes

/- A text has at least as many bytes as characters. -/
theorem length_le_length_encode (s : String) :
    s.length ≤ (encode s).length := by
  rw [encode, ← String.length_toList]
  induction s.toList with
  | nil => exact Nat.zero_le _
  | cons c cs ih =>
      have hOne : 0 < (String.utf8EncodeChar c).length :=
        List.length_pos_iff.mpr
          String.utf8EncodeChar_ne_nil
      rw [List.flatMap_cons, List.length_append,
        List.length_cons]
      omega

end Utf8

end Slideshow

import Mathlib.Tactic.IntervalCases
import Slideshow.Proofs.Text.Separator
import Slideshow.Text.Numeral

/-
  This file proves that a written number reads back, so that
  different numbers are written differently, and which texts
  are read as numbers at all.

  Key definitions include:
    * `Numeral.writePair`
    * `Numeral.IsOf`

  Main results include:
    * `Numeral.head_toDigits_ne_zero`
    * `Numeral.valueFrom?_toDigits`
    * `Numeral.value?_write`
    * `Numeral.write_injective`
    * `Numeral.value?_padStart`
    * `Numeral.readUInt32?_write`
    * `Numeral.split_writePair`
    * `Numeral.readUInt32?_eq_some_iff`
-/

namespace Slideshow

namespace Numeral

theorem digit?_of_isDigit
    {c : Char}
    (hDigit : c.isDigit = true) :
    digit? c = some (c.toNat - '0'.toNat) := by
  have hRange : '0' ≤ c ∧ c ≤ '9' := by
    simpa [Char.isDigit, Char.le_def] using hDigit
  simp [digit?, hRange]

/- A run of digits has the value of its digits. -/
theorem valueFrom?_eq_some
    {acc : Nat}
    {cs : List Char}
    (hDigits : ∀ c ∈ cs, c.isDigit) :
    valueFrom? acc cs =
      some (Nat.ofDigitChars 10 cs acc) := by
  induction cs generalizing acc with
  | nil =>
      simp [valueFrom?]
  | cons c cs ih =>
      rw [List.forall_mem_cons] at hDigits
      simp only [valueFrom?, digit?_of_isDigit hDigits.1]
      rw [ih hDigits.2, Nat.ofDigitChars_cons]

/- The digits of a positive number start with no zero. -/
theorem head_toDigits_ne_zero
    {n : Nat}
    (hPositive : 0 < n) :
    (Nat.toDigits 10 n).head? ≠ some '0' := by
  induction n using Nat.strong_induction_on with
  | _ n ih =>
      by_cases hSmall : n < 10
      · rw [Nat.toDigits_of_lt_base hSmall]
        interval_cases n <;> decide
      · rw [Nat.toDigits_of_base_le (by omega) (by omega)]
        have hFirst := ih (n / 10) (by omega) (by omega)
        cases hDigits : Nat.toDigits 10 (n / 10) with
        | nil =>
            exact absurd hDigits Nat.toDigits_ne_nil
        | cons c cs =>
            rw [hDigits] at hFirst
            exact hFirst

/- The digits of a number have its value. -/
theorem valueFrom?_toDigits (n : Nat) :
    valueFrom? 0 (Nat.toDigits 10 n) = some n := by
  have hDigits :
      ∀ c ∈ Nat.toDigits 10 n, c.isDigit := by
    intro c hc
    exact Nat.isDigit_of_mem_toDigits (by omega) (by omega)
      hc
  rw [valueFrom?_eq_some hDigits,
    Nat.ofDigitChars_ten_toDigits]

/- A written number reads back. -/
theorem value?_write (n : Nat) :
    value? (write n).toList = some n := by
  have hValue := valueFrom?_toDigits n
  rw [write, String.toList_ofList]
  cases hChars : Nat.toDigits 10 n with
  | nil =>
      exact absurd hChars Nat.toDigits_ne_nil
  | cons c cs =>
      rw [hChars] at hValue
      exact hValue

/- Different numbers are written differently. -/
theorem write_injective
    {m n : Nat}
    (hEq : write m = write n) :
    m = n := by
  have hValue : some m = some n := by
    rw [← value?_write m, hEq, value?_write]
  exact Option.some.inj hValue

/- Zeros in front do not change the value of digits. -/
theorem valueFrom?_replicate_zero
    (count : Nat)
    (cs : List Char) :
    valueFrom? 0 (List.replicate count '0' ++ cs) =
      valueFrom? 0 cs := by
  induction count with
  | zero =>
      rfl
  | succ count ih =>
      rw [← ih]
      rfl

/- A number filled up with zeros still has its value. -/
theorem value?_padStart
    (width n : Nat) :
    value? (Text.padStart width '0' (write n)).toList =
      some n := by
  have hDigits :
      (Text.padStart width '0' (write n)).toList =
        List.replicate
            (width - (Nat.toDigits 10 n).length) '0' ++
          Nat.toDigits 10 n := by
    simp [Text.padStart, write, List.leftpad]
  have hValue := valueFrom?_toDigits n
  rw [← valueFrom?_replicate_zero
    (width - (Nat.toDigits 10 n).length), ← hDigits] at hValue
  cases hChars :
    (Text.padStart width '0' (write n)).toList with
  | nil =>
      rw [hChars] at hDigits
      have hNone := (List.append_eq_nil_iff.mp hDigits.symm).2
      exact absurd hNone Nat.toDigits_ne_nil
  | cons c cs =>
      rw [hChars] at hValue
      exact hValue

theorem isDigit_of_mem_write
    {n : Nat}
    {c : Char}
    (hMem : c ∈ (write n).toList) :
    c.isDigit = true := by
  rw [write, String.toList_ofList] at hMem
  exact Nat.isDigit_of_mem_toDigits (by omega) (by omega)
    hMem

/- A written number below a bound reads back. -/
theorem readBelow?_write
    {bound n : Nat}
    (hLt : n < bound) :
    readBelow? bound (write n).toList = some n := by
  have hNoSign (rest : List Char) :
      (write n).toList ≠ '+' :: rest := by
    intro hSign
    have hMem : '+' ∈ (write n).toList := by
      rw [hSign]
      exact List.mem_cons_self
    exact absurd (isDigit_of_mem_write hMem) (by decide)
  unfold readBelow?
  split
  · rename_i rest hSign
    exact absurd hSign (hNoSign rest)
  · simp only [value?_write, if_pos hLt]

/- A written word reads back. -/
theorem readUInt32?_write (n : UInt32) :
    readUInt32? (write n.toNat) = some n := by
  rw [readUInt32?, readBelow?_write n.toNat_lt,
    Option.map_some]
  exact congrArg some (UInt32.ofNat_toNat)

------------------------------------------------------------
-- Blanks and Separators
------------------------------------------------------------

theorem trim_write (n : Nat) :
    Text.trim (write n) = write n :=
  Text.trim_eq_self fun _ hMem =>
    Chars.isBlank_of_isDigit (isDigit_of_mem_write hMem)

theorem split_write
    {sep : Char}
    (n : Nat)
    (hDigit : ¬ sep.isDigit = true) :
    Text.split sep (write n) = [write n] := by
  rw [Text.split_eq_singleton_iff]
  exact ⟨fun hMem => hDigit (isDigit_of_mem_write hMem),
    rfl⟩

/- Two numbers with a separator between them. -/
def writePair (sep : Char) (m n : Nat) : String :=
  write m ++ String.singleton sep ++ write n

theorem toList_writePair
    (sep : Char)
    (m n : Nat) :
    (writePair sep m n).toList =
      (write m).toList ++ sep :: (write n).toList := by
  rw [writePair, String.toList_append, String.toList_append,
    String.toList_singleton, List.append_assoc,
    List.singleton_append]

/- A pair is written with digits and the separator. -/
theorem isDigit_or_eq_of_mem_writePair
    {sep c : Char}
    {m n : Nat}
    (hMem : c ∈ (writePair sep m n).toList) :
    c.isDigit = true ∨ c = sep := by
  rw [toList_writePair, List.mem_append, List.mem_cons]
    at hMem
  rcases hMem with hFirst | rfl | hSecond
  · exact .inl (isDigit_of_mem_write hFirst)
  · exact .inr rfl
  · exact .inl (isDigit_of_mem_write hSecond)

/- Two numbers that are written are not trimmed. -/
theorem trim_writePair
    {sep : Char}
    (m n : Nat)
    (hVisible : isBlank sep = false) :
    Text.trim (writePair sep m n) = writePair sep m n := by
  apply Text.trim_eq_self
  intro c hMem
  rcases isDigit_or_eq_of_mem_writePair hMem with
    hDigit | rfl
  · exact Chars.isBlank_of_isDigit hDigit
  · exact hVisible

/- Two numbers that are written are cut between them. -/
theorem split_writePair
    {sep : Char}
    (m n : Nat)
    (hDigit : ¬ sep.isDigit = true) :
    Text.split sep (writePair sep m n) =
      [write m, write n] := by
  rw [writePair, Text.split_append, split_write m hDigit,
    split_write n hDigit, List.singleton_append]

------------------------------------------------------------
-- Numerals of a Number
------------------------------------------------------------

theorem digit?_eq_none
    {c : Char}
    (hNot : ¬ c.isDigit = true) :
    digit? c = none := by
  have hRange : ¬ ('0' ≤ c ∧ c ≤ '9') := by
    simpa [Char.isDigit, Char.le_def] using hNot
  rw [digit?, if_neg hRange]

/- The value of a run is that of its digits alone. -/
theorem valueFrom?_eq_some_iff
    {acc n : Nat}
    {cs : List Char} :
    valueFrom? acc cs = some n ↔
      (∀ c ∈ cs, c.isDigit = true) ∧
        Nat.ofDigitChars 10 cs acc = n := by
  constructor
  · intro hValue
    have hDigits : ∀ c ∈ cs, c.isDigit = true := by
      induction cs generalizing acc with
      | nil =>
          simp
      | cons c cs ih =>
          by_cases hDigit : c.isDigit = true
          · rw [valueFrom?, digit?_of_isDigit hDigit]
              at hValue
            rw [List.forall_mem_cons]
            exact ⟨hDigit, ih hValue⟩
          · rw [valueFrom?, digit?_eq_none hDigit] at hValue
            cases hValue
    rw [valueFrom?_eq_some hDigits] at hValue
    exact ⟨hDigits, Option.some.inj hValue⟩
  · rintro ⟨hDigits, rfl⟩
    exact valueFrom?_eq_some hDigits

/-
  A text is a numeral of a number: digits with its value,
  with leading zeros or not, and with a plus sign in front
  or not.
-/
def IsOf (n : Nat) (cs : List Char) : Prop :=
  ∃ digits,
    (cs = digits ∨ cs = '+' :: digits) ∧
      digits ≠ [] ∧
      (∀ c ∈ digits, c.isDigit = true) ∧
      Nat.ofDigitChars 10 digits 0 = n

/- A run of digits is read if there is one. -/
theorem value?_eq_some_iff
    {n : Nat}
    {cs : List Char} :
    value? cs = some n ↔
      cs ≠ [] ∧ (∀ c ∈ cs, c.isDigit = true) ∧
        Nat.ofDigitChars 10 cs 0 = n := by
  cases cs with
  | nil =>
      simp [value?]
  | cons c cs =>
      rw [value?, valueFrom?_eq_some_iff]
      simp

/- The characters of a numeral. -/
theorem IsOf.isDigit_or_eq
    {n : Nat}
    {c : Char}
    {cs : List Char}
    (hNumeral : IsOf n cs)
    (hMem : c ∈ cs) :
    c.isDigit = true ∨ c = '+' := by
  rcases hNumeral with ⟨digits, rfl | rfl, -, hDigits, -⟩
  · exact .inl (hDigits c hMem)
  · rcases List.mem_cons.mp hMem with rfl | hMem
    · exact .inr rfl
    · exact .inl (hDigits c hMem)

theorem isOf_write (n : Nat) :
    IsOf n (write n).toList :=
  ⟨_, .inl rfl, value?_eq_some_iff.mp (value?_write n)⟩

/- A text without a plus sign in front. -/
def unsigned (cs : List Char) : List Char :=
  if cs.head? = some '+' then cs.tail else cs

/- A numeral has its value behind its sign. -/
theorem isOf_iff
    {n : Nat}
    {cs : List Char} :
    IsOf n cs ↔ value? (unsigned cs) = some n := by
  have hPlus : ¬ '+'.isDigit = true := by
    decide
  rw [value?_eq_some_iff, unsigned]
  by_cases hSign : cs.head? = some '+'
  · rw [if_pos hSign]
    rcases List.head?_eq_some_iff.mp hSign with ⟨rest, rfl⟩
    constructor
    · rintro ⟨digits, rfl | hEq, hDigits⟩
      · exact absurd
          (hDigits.2.1 _ List.mem_cons_self) hPlus
      · cases hEq
        exact hDigits
    · intro hRest
      exact ⟨rest, .inr rfl, hRest⟩
  · rw [if_neg hSign]
    constructor
    · rintro ⟨digits, rfl | rfl, hDigits⟩
      · exact hDigits
      · exact absurd rfl hSign
    · intro hDigits
      exact ⟨_, .inl rfl, hDigits⟩

/- A numeral is read if its value is below the bound. -/
theorem readBelow?_eq
    (bound : Nat)
    (cs : List Char) :
    readBelow? bound cs =
      (value? (unsigned cs)).filter (· < bound) := by
  unfold readBelow?
  split
  · rename_i rest
    have hUnsigned : unsigned ('+' :: rest) = rest := rfl
    rw [hUnsigned]
    dsimp only
    cases value? rest with
    | none => rfl
    | some n => simp [Option.filter_some]
  · rename_i hNoSign
    have hUnsigned : unsigned cs = cs := by
      rw [unsigned, if_neg]
      intro hSign
      rcases List.head?_eq_some_iff.mp hSign with
        ⟨rest, hRest⟩
      exact hNoSign rest hRest
    rw [hUnsigned]
    dsimp only
    cases value? cs with
    | none => rfl
    | some n => simp [Option.filter_some]

theorem readBelow?_eq_some_iff
    {bound n : Nat}
    {cs : List Char} :
    readBelow? bound cs = some n ↔
      IsOf n cs ∧ n < bound := by
  rw [readBelow?_eq, Option.filter_eq_some_iff, isOf_iff,
    decide_eq_true_iff]

theorem IsOf.unique
    {m n : Nat}
    {cs : List Char}
    (hFirst : IsOf m cs)
    (hSecond : IsOf n cs) :
    m = n := by
  rw [isOf_iff] at hFirst hSecond
  exact Option.some.inj (hFirst.symm.trans hSecond)

/- The numerals of words are read. -/
theorem readUInt32?_eq_some_iff
    {n : UInt32}
    {s : String} :
    readUInt32? s = some n ↔ IsOf n.toNat s.toList := by
  rw [readUInt32?, Option.map_eq_some_iff]
  constructor
  · rintro ⟨m, hRead, rfl⟩
    rcases readBelow?_eq_some_iff.mp hRead with
      ⟨hNumeral, hLt⟩
    rwa [Nat.toUInt32, UInt32.toNat_ofNat_of_lt' hLt]
  · intro hNumeral
    exact ⟨n.toNat,
      readBelow?_eq_some_iff.mpr ⟨hNumeral, n.toNat_lt⟩,
      UInt32.ofNat_toNat⟩

end Numeral

end Slideshow

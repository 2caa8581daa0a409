import Slideshow.Frame.Reading
import Slideshow.Proofs.Frame.Exact
import Slideshow.Proofs.Numeral

/-
  This file proves which texts are read as frame rates and
  as frame sizes, and that both read back as they are
  written.

  A text is cut at its separators into parts, and each part
  has to be a numeral of a word that is not zero.  So there
  is one value to read, and what can be wrong with a text
  can be said part by part (`HasFault`).

  Key definitions include:
    * `Numeral.IsUsable`
    * `HasFault`
    * `IsTextForm`
    * `FrameRate.IsGivenBy`
    * `FrameSize.IsGivenBy`

  Main results include:
    * `FrameRate.read_eq_ok_iff`
    * `FrameSize.read_eq_ok_iff`
    * `isTextForm_of_accepts`
    * `isTextForm_rates_and_sizes`
-/

namespace Slideshow

------------------------------------------------------------
-- Numerals of Words
------------------------------------------------------------

namespace Numeral

/- A text is a numeral of a word that is not zero. -/
def IsUsable (n : UInt32) (s : String) : Prop :=
  IsOf n.toNat s.toList ∧ 0 < n.toNat

/- A numeral has no separators. -/
theorem IsOf.not_mem
    {n : Nat}
    {sep : Char}
    {cs : List Char}
    (hNumeral : IsOf n cs)
    (hDigit : ¬ sep.isDigit = true)
    (hSign : sep ≠ '+') :
    sep ∉ cs := by
  intro hMem
  rcases hNumeral.isDigit_or_eq hMem with hIs | hIs
  · exact hDigit hIs
  · exact hSign hIs

theorem IsOf.ne_empty
    {n : Nat}
    {s : String}
    (hNumeral : IsOf n s.toList) :
    s ≠ "" := by
  rintro rfl
  rcases hNumeral with ⟨digits, hText, hSome, -⟩
  rcases hText with hEq | hEq
  · exact hSome hEq.symm
  · cases hEq

end Numeral

------------------------------------------------------------
-- Texts of Numerals
------------------------------------------------------------

/-
  What can be wrong with the parts of a text of at least so
  many numerals, and at most two.
-/
inductive HasFault
    (least : Nat)
    (parts : List String) : Prop
| missing
    (hMissing : parts.length < least ∨ "" ∈ parts)
| extra
    (hExtra : 2 < parts.length)
| zero
    {part : String}
    (hPart : part ∈ parts)
    (hZero : Numeral.IsOf 0 part.toList)
| tooLarge
    {part : String}
    {n : Nat}
    (hPart : part ∈ parts)
    (hNumeral : Numeral.IsOf n part.toList)
    (hLarge : 2 ^ 32 ≤ n)

/-
  Values of a kind are written and read as numerals.  What
  is written reads back, with blanks around it.  A text is
  read exactly if its parts give a value, and it is a
  format error otherwise, as it is for each of the faults.
-/
structure IsTextForm
    {α : Type}
    (check : UInt32 → UInt32 → Except FrameFault α)
    (text : α → String)
    (read : String → Except Error α)
    (parts : String → List String)
    (IsGivenBy : α → List String → Prop)
    (least : Nat)
    (fault : String → FormatFault) : Prop where
  readsBack :
    ∀ first second a, check first second = .ok a →
      ∀ before after : String,
        Chars.AreBlank before.toList →
        Chars.AreBlank after.toList →
        read (before ++ text a ++ after) = .ok a
  accepts :
    ∀ s a, read s = .ok a ↔ IsGivenBy a (parts s)
  refuses :
    ∀ s, (∀ a, ¬ IsGivenBy a (parts s)) →
      read s = .error (.format (fault s))
  faulty :
    ∀ s, HasFault least (parts s) →
      read s = .error (.format (fault s))

------------------------------------------------------------
-- Words That Are Checked
------------------------------------------------------------

/- Words are read first and checked as a value then. -/
def checkWords
    {α : Type}
    (check : UInt32 → UInt32 → Except FrameFault α)
    (fault : FormatFault) :
    Option (UInt32 × UInt32) → Except Error α
  | none => .error (.format fault)
  | some (first, second) =>
      match check first second with
      | .ok a => .ok a
      | .error _ => .error (.format fault)

section CheckWords

variable {α : Type}
variable {check : UInt32 → UInt32 → Except FrameFault α}
variable {fault : FormatFault}

/- A value is that of words that were read. -/
theorem checkWords_eq_ok_iff
    {words : Option (UInt32 × UInt32)}
    {a : α} :
    checkWords check fault words = .ok a ↔
      ∃ first second,
        words = some (first, second) ∧
          check first second = .ok a := by
  rcases words with _ | ⟨first, second⟩
  · simp [checkWords]
  · cases hCheck : check first second <;>
      simp [checkWords, hCheck]

/- All that can go wrong is a format error. -/
theorem checkWords_fails
    (words : Option (UInt32 × UInt32)) :
    (∃ a, checkWords check fault words = .ok a) ∨
      checkWords check fault words =
        .error (.format fault) := by
  rcases words with _ | ⟨first, second⟩
  · exact .inr rfl
  · cases hCheck : check first second with
    | error reason =>
        exact .inr (by simp [checkWords, hCheck])
    | ok a =>
        exact .inl ⟨a, by simp [checkWords, hCheck]⟩

end CheckWords

------------------------------------------------------------
-- Forms
------------------------------------------------------------

/- Parts that are all usable have no fault. -/
theorem not_hasFault
    {least : Nat}
    {parts : List String}
    (hLeast : least ≤ parts.length)
    (hMost : parts.length ≤ 2)
    (hUsable : ∀ part ∈ parts,
      ∃ n, Numeral.IsUsable n part) :
    ¬ HasFault least parts := by
  intro hFault
  cases hFault with
  | missing hMissing =>
      rcases hMissing with hFew | hEmpty
      · omega
      · rcases hUsable _ hEmpty with ⟨n, hNumeral, -⟩
        exact hNumeral.ne_empty rfl
  | extra hExtra =>
      omega
  | zero hPart hZero =>
      rcases hUsable _ hPart with ⟨n, hNumeral, hPos⟩
      rw [hNumeral.unique hZero] at hPos
      exact absurd hPos (lt_irrefl 0)
  | tooLarge hPart hLargeNumeral hLarge =>
      rcases hUsable _ hPart with ⟨n, hNumeral, -⟩
      have hLt := n.toNat_lt
      rw [hNumeral.unique hLargeNumeral] at hLt
      omega

/-
  It is enough to know which texts are read, what the parts
  of a value are as it is written, and that words are read
  from a text and checked, as all else is a format error.
-/
theorem isTextForm_of_accepts
    {α : Type}
    {check : UInt32 → UInt32 → Except FrameFault α}
    {text : α → String}
    {read : String → Except Error α}
    {words : String → Option (UInt32 × UInt32)}
    {parts : String → List String}
    {IsGivenBy : α → List String → Prop}
    {least : Nat}
    {fault : String → FormatFault}
    (hRead : ∀ s,
      read s = checkWords check (fault s) (words s))
    (hAccepts :
      ∀ s a, read s = .ok a ↔ IsGivenBy a (parts s))
    (hText : ∀ first second a, check first second = .ok a →
      ∀ before after : String,
        Chars.AreBlank before.toList →
        Chars.AreBlank after.toList →
        IsGivenBy a (parts (before ++ text a ++ after)))
    (hParts : ∀ pieces a, IsGivenBy a pieces →
      least ≤ pieces.length ∧ pieces.length ≤ 2 ∧
        ∀ part ∈ pieces, ∃ n, Numeral.IsUsable n part) :
    IsTextForm check text read parts IsGivenBy least
      fault := by
  have hFails (s : String) :
      (∃ a, IsGivenBy a (parts s)) ∨
        read s = .error (.format (fault s)) := by
    rw [← exists_congr (hAccepts s), hRead]
    exact checkWords_fails (words s)
  constructor
  case readsBack =>
    intro first second a hCheck before after hBefore hAfter
    rw [hAccepts]
    exact hText first second a hCheck before after hBefore
      hAfter
  case accepts =>
    exact hAccepts
  case refuses =>
    intro s hNone
    rcases hFails s with ⟨a, hGiven⟩ | hError
    · exact absurd hGiven (hNone a)
    · exact hError
  case faulty =>
    intro s hFault
    rcases hFails s with ⟨a, hGiven⟩ | hError
    · rcases hParts _ a hGiven with
        ⟨hLeast, hMost, hUsable⟩
      exact absurd hFault
        (not_hasFault hLeast hMost hUsable)
    · exact hError

------------------------------------------------------------
-- Frame Rates
------------------------------------------------------------

namespace FrameRate

/- The parts of a text between its slashes. -/
def parts (s : String) : List String :=
  (Text.split '/' (Text.trim s)).map Text.trim

/- One numeral gives a whole rate, and two a fraction. -/
inductive IsGivenBy
    (rate : FrameRate) :
    List String → Prop
| whole
    {num : String}
    (hNum : Numeral.IsUsable rate.num num)
    (hOne : rate.den = 1) :
    IsGivenBy rate [num]
| fraction
    {num den : String}
    (hNum : Numeral.IsUsable rate.num num)
    (hDen : Numeral.IsUsable rate.den den) :
    IsGivenBy rate [num, den]

theorem read_eq (s : String) :
    read s =
      checkWords checked (.frameRate (Text.trim s))
        (readParts? (Text.trim s)) := by
  unfold read
  dsimp only
  rcases readParts? (Text.trim s) with _ | ⟨num, den⟩
  · rfl
  · dsimp only [checkWords]
    cases checked num den <;> rfl

/- A rate is read if its parts are and can be used. -/
theorem read_eq_ok_iff_readParts?
    {s : String}
    {rate : FrameRate} :
    read s = .ok rate ↔
      readParts? (Text.trim s) =
          some (rate.num, rate.den) ∧
        0 < rate.num.toNat ∧ 0 < rate.den.toNat := by
  simp only [read_eq, checkWords_eq_ok_iff,
    checked_eq_ok_iff]
  constructor
  · rintro ⟨num, den, hParts, rfl, hPos⟩
    exact ⟨hParts, hPos⟩
  · rintro ⟨hParts, hPos⟩
    exact ⟨rate.num, rate.den, hParts, rfl, hPos⟩

/- The numerals of a rate, with a slash between two. -/
theorem readParts?_eq_some_iff
    {s : String}
    {num den : UInt32} :
    readParts? s = some (num, den) ↔
      (∃ piece,
        Text.split '/' s = [piece] ∧
          Numeral.IsOf num.toNat piece.toList ∧
          den = 1) ∨
        ∃ first second,
          Text.split '/' s = [first, second] ∧
            Numeral.IsOf num.toNat
              (Text.trim first).toList ∧
            Numeral.IsOf den.toNat
              (Text.trim second).toList := by
  unfold readParts?
  rcases Text.split_cases '/' s with
    ⟨-, hOnce, hPieces⟩ |
    ⟨before, after, -, -, hOnce, hPieces⟩
  · rw [hOnce, hPieces]
    dsimp only
    rw [Option.map_eq_some_iff]
    constructor
    · rintro ⟨word, hRead, hEq⟩
      cases hEq
      exact .inl
        ⟨s, rfl, Numeral.readUInt32?_eq_some_iff.mp hRead,
          rfl⟩
    · rintro (⟨piece, hPiece, hNum, rfl⟩ |
        ⟨first, second, hPair, -⟩)
      · cases hPiece
        exact ⟨num,
          Numeral.readUInt32?_eq_some_iff.mpr hNum, rfl⟩
      · cases hPair
  · have hNone (piece : String) :
        before :: Text.split '/' after ≠ [piece] := by
      simp [Text.split_ne_nil]
    rw [hOnce, hPieces]
    simp only [Option.bind_eq_bind, Option.bind_eq_some_iff,
      Option.pure_def, Option.some.injEq, Prod.mk.injEq,
      Numeral.readUInt32?_eq_some_iff, hNone, false_and,
      exists_false, false_or, List.cons.injEq,
      Text.split_eq_singleton_iff]
    constructor
    · rintro ⟨_, hNum, _, hDen, rfl, rfl⟩
      refine ⟨before, after, ⟨rfl, ?_, rfl⟩, hNum, hDen⟩
      rw [← Text.mem_trim_iff after (by decide)]
      exact hDen.not_mem (by decide) (by decide)
    · rintro ⟨_, _, ⟨rfl, -, rfl⟩, hNum, hDen⟩
      exact ⟨num, hNum, den, hDen, rfl, rfl⟩

/- A rate is read exactly if the parts give it. -/
theorem read_eq_ok_iff
    (s : String)
    (rate : FrameRate) :
    read s = .ok rate ↔ rate.IsGivenBy (parts s) := by
  rw [read_eq_ok_iff_readParts?, readParts?_eq_some_iff,
    parts]
  constructor
  · rintro ⟨⟨piece, hPieces, hNum, hOne⟩ |
      ⟨first, second, hPieces, hNum, hDen⟩, hPos⟩
    · rcases Text.split_eq_singleton_iff.mp hPieces with
        ⟨-, rfl⟩
      rw [hPieces, List.map_singleton, Text.trim_trim]
      exact .whole ⟨hNum, hPos.1⟩ hOne
    · rw [hPieces, List.map_cons, List.map_singleton]
      exact .fraction ⟨hNum, hPos.1⟩ ⟨hDen, hPos.2⟩
  · intro hGiven
    generalize hPieces :
      (Text.split '/' (Text.trim s)).map Text.trim = pieces
      at hGiven
    cases hGiven with
    | whole hNum hOne =>
        rcases List.map_eq_singleton_iff.mp hPieces with
          ⟨piece, hSplit, rfl⟩
        rcases Text.split_eq_singleton_iff.mp hSplit with
          ⟨-, rfl⟩
        rw [Text.trim_trim] at hNum
        refine ⟨.inl ⟨_, hSplit, hNum.1, hOne⟩, hNum.2, ?_⟩
        rw [hOne]
        decide
    | fraction hNum hDen =>
        rcases List.map_eq_cons_iff.mp hPieces with
          ⟨first, rest, hSplit, rfl, hRest⟩
        rcases List.map_eq_singleton_iff.mp hRest with
          ⟨second, rfl, rfl⟩
        exact ⟨.inr ⟨first, second, hSplit, hNum.1, hDen.1⟩,
          hNum.2, hDen.2⟩

/- The parts of a rate as it is written give it. -/
theorem isGivenBy_parts_text
    {rate : FrameRate}
    {before after : String}
    (hNum : 0 < rate.num.toNat)
    (hDen : 0 < rate.den.toNat)
    (hBefore : Chars.AreBlank before.toList)
    (hAfter : Chars.AreBlank after.toList) :
    rate.IsGivenBy
      (parts (before ++ rate.text ++ after)) := by
  rw [parts, Text.trim_between _ hBefore hAfter, text]
  by_cases hOne : rate.den = 1
  · rw [if_pos hOne, Numeral.trim_write,
      Numeral.split_write _ (by decide), List.map_singleton,
      Numeral.trim_write]
    exact .whole ⟨Numeral.isOf_write _, hNum⟩ hOne
  · have hText :
        Numeral.write rate.num.toNat ++ "/" ++
            Numeral.write rate.den.toNat =
          Numeral.writePair '/' rate.num.toNat
            rate.den.toNat := rfl
    rw [if_neg hOne, hText,
      Numeral.trim_writePair _ _ (by decide),
      Numeral.split_writePair _ _ (by decide),
      List.map_cons, List.map_singleton, Numeral.trim_write,
      Numeral.trim_write]
    exact .fraction ⟨Numeral.isOf_write _, hNum⟩
      ⟨Numeral.isOf_write _, hDen⟩

end FrameRate

------------------------------------------------------------
-- Frame Sizes
------------------------------------------------------------

namespace FrameSize

/- The parts of a text between its crosses. -/
def parts (s : String) : List String :=
  Text.split 'x' (Text.trim s)

/- Two numerals give a size. -/
inductive IsGivenBy
    (size : FrameSize) :
    List String → Prop
| sides
    {width height : String}
    (hWidth : Numeral.IsUsable size.width width)
    (hHeight : Numeral.IsUsable size.height height) :
    IsGivenBy size [width, height]

/- The sizes that can be used have two positive sides. -/
theorem checked_eq_ok_iff
    {width height : UInt32}
    {size : FrameSize} :
    checked width height = .ok size ↔
      size = ⟨width, height⟩ ∧
        0 < size.width.toNat ∧ 0 < size.height.toNat := by
  unfold checked
  by_cases hNone : width = 0 ∨ height = 0
  · rw [if_pos hNone]
    simp only [reduceCtorEq, false_iff]
    rintro ⟨rfl, hWidth, hHeight⟩
    rw [word_eq_zero_iff, word_eq_zero_iff] at hNone
    exact hNone.elim (absurd hWidth) (absurd hHeight)
  · rw [if_neg hNone, Except.ok.injEq]
    rw [word_eq_zero_iff, word_eq_zero_iff, not_or, not_not,
      not_not] at hNone
    constructor
    · rintro rfl
      exact ⟨rfl, hNone⟩
    · rintro ⟨rfl, -⟩
      rfl

theorem read_eq (s : String) :
    read s =
      checkWords checked (.frameSize s) (readParts? s) := by
  unfold read
  rcases readParts? s with _ | ⟨width, height⟩
  · rfl
  · dsimp only [checkWords]
    cases checked width height <;> rfl

/- The numerals of a size, with a cross between them. -/
theorem readParts?_eq_some_iff
    {s : String}
    {width height : UInt32} :
    readParts? s = some (width, height) ↔
      ∃ first second,
        parts s = [first, second] ∧
          Numeral.IsOf width.toNat first.toList ∧
          Numeral.IsOf height.toNat second.toList := by
  simp only [readParts?, parts, Option.bind_eq_bind,
    Option.bind_eq_some_iff, Option.pure_def,
    Option.some.injEq, Prod.mk.injEq,
    Numeral.readUInt32?_eq_some_iff,
    Text.split_eq_pair_iff]
  constructor
  · rintro ⟨⟨first, second⟩, hOnce, _, hWidth, _, hHeight,
      rfl, rfl⟩
    exact ⟨first, second,
      ⟨hOnce, hHeight.not_mem (by decide) (by decide)⟩,
      hWidth, hHeight⟩
  · rintro ⟨first, second, ⟨hOnce, -⟩, hWidth, hHeight⟩
    exact ⟨⟨first, second⟩, hOnce, width, hWidth, height,
      hHeight, rfl, rfl⟩

/- A size is read exactly if the parts give it. -/
theorem read_eq_ok_iff
    (s : String)
    (size : FrameSize) :
    read s = .ok size ↔ size.IsGivenBy (parts s) := by
  simp only [read_eq, checkWords_eq_ok_iff,
    checked_eq_ok_iff, readParts?_eq_some_iff]
  constructor
  · rintro ⟨_, _, ⟨first, second, hParts, hWidth, hHeight⟩,
      rfl, hPos⟩
    rw [hParts]
    exact .sides ⟨hWidth, hPos.1⟩ ⟨hHeight, hPos.2⟩
  · intro hGiven
    generalize hParts : parts s = pieces at hGiven
    cases hGiven with
    | sides hWidth hHeight =>
        exact ⟨size.width, size.height,
          ⟨_, _, rfl, hWidth.1, hHeight.1⟩, rfl, hWidth.2,
          hHeight.2⟩

/- The parts of a size as it is written give it. -/
theorem isGivenBy_parts_text
    {size : FrameSize}
    {before after : String}
    (hWidth : 0 < size.width.toNat)
    (hHeight : 0 < size.height.toNat)
    (hBefore : Chars.AreBlank before.toList)
    (hAfter : Chars.AreBlank after.toList) :
    size.IsGivenBy
      (parts (before ++ size.text ++ after)) := by
  have hText :
      size.text =
        Numeral.writePair 'x' size.width.toNat
          size.height.toNat := rfl
  rw [parts, Text.trim_between _ hBefore hAfter, hText,
    Numeral.trim_writePair _ _ (by decide),
    Numeral.split_writePair _ _ (by decide)]
  exact .sides ⟨Numeral.isOf_write _, hWidth⟩
    ⟨Numeral.isOf_write _, hHeight⟩

end FrameSize

------------------------------------------------------------
-- Rates and Sizes
------------------------------------------------------------

/-
  Rates and sizes that can be used read back as they are
  written, with blanks around them.  What is read are the
  positive numerals of words around the separator, where a
  rate may be a single one, and all else is a format error:
  a part that is missing or one too many, a zero and a
  number that does not fit a word.
-/
theorem isTextForm_rates_and_sizes :
    IsTextForm FrameRate.checked FrameRate.text
        FrameRate.read FrameRate.parts FrameRate.IsGivenBy
        1 (fun s => .frameRate (Text.trim s)) ∧
      IsTextForm FrameSize.checked FrameSize.text
        FrameSize.read FrameSize.parts FrameSize.IsGivenBy
        2 .frameSize := by
  constructor
  · apply isTextForm_of_accepts FrameRate.read_eq
      FrameRate.read_eq_ok_iff
    · intro num den rate hCheck before after hBefore hAfter
      rcases FrameRate.checked_eq_ok_iff.mp hCheck with
        ⟨-, hNum, hDen⟩
      exact FrameRate.isGivenBy_parts_text hNum hDen hBefore
        hAfter
    · intro pieces rate hGiven
      cases hGiven with
      | whole hNum hOne =>
          exact ⟨le_refl 1, one_le_two,
            List.forall_mem_singleton.mpr ⟨_, hNum⟩⟩
      | fraction hNum hDen =>
          exact ⟨one_le_two, le_refl 2,
            List.forall_mem_cons.mpr ⟨⟨_, hNum⟩,
              List.forall_mem_singleton.mpr ⟨_, hDen⟩⟩⟩
  · apply isTextForm_of_accepts FrameSize.read_eq
      FrameSize.read_eq_ok_iff
    · intro width height size hCheck before after hBefore
        hAfter
      rcases FrameSize.checked_eq_ok_iff.mp hCheck with
        ⟨-, hWidth, hHeight⟩
      exact FrameSize.isGivenBy_parts_text hWidth hHeight
        hBefore hAfter
    · intro pieces size hGiven
      cases hGiven with
      | sides hWidth hHeight =>
          exact ⟨le_refl 2, le_refl 2,
            List.forall_mem_cons.mpr ⟨⟨_, hWidth⟩,
              List.forall_mem_singleton.mpr ⟨_, hHeight⟩⟩⟩

/-
  A fraction reads back between blanks, signs and zeros in
  front of numerals do not count, and a side of 2^32 is too
  large.
-/
theorem isTextForm_rates_and_sizes_film :
    FrameRate.checked 30000 1001 = .ok ⟨30000, 1001⟩ ∧
      FrameRate.read
          (" " ++ FrameRate.text ⟨30000, 1001⟩ ++ "\t") =
        .ok ⟨30000, 1001⟩ ∧
      FrameSize.IsGivenBy ⟨1920, 1080⟩
        (FrameSize.parts "+1920x01080") ∧
      FrameSize.read "+1920x01080" = .ok ⟨1920, 1080⟩ ∧
      HasFault 2 (FrameSize.parts "4294967296x1") ∧
      FrameSize.read "4294967296x1" =
        .error (.format (.frameSize "4294967296x1")) := by
  have hRate :
      FrameRate.checked 30000 1001 = .ok ⟨30000, 1001⟩ :=
    rfl
  have hSize :
      FrameSize.IsGivenBy ⟨1920, 1080⟩
        (FrameSize.parts "+1920x01080") :=
    .sides ⟨Numeral.isOf_iff.mpr rfl, by decide⟩
      ⟨Numeral.isOf_iff.mpr rfl, by decide⟩
  have hFault :
      HasFault 2 (FrameSize.parts "4294967296x1") :=
    .tooLarge List.mem_cons_self
      (Numeral.isOf_iff.mpr rfl) (le_refl (2 ^ 32))
  rcases isTextForm_rates_and_sizes with ⟨hRates, hSizes⟩
  refine ⟨hRate, ?_, hSize, ?_, hFault, ?_⟩
  · exact hRates.readsBack _ _ _ hRate " " "\t"
      (List.forall_mem_singleton.mpr rfl)
      (List.forall_mem_singleton.mpr rfl)
  · exact (hSizes.accepts _ _).mpr hSize
  · exact hSizes.faulty _ hFault

end Slideshow

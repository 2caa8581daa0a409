import Slideshow.Proofs.Decimal.Reading
import Slideshow.Proofs.Text.Occurrence
import Slideshow.Proofs.Timing

/-
  This file proves what clock values and ranges of whole
  numbers are read as, and which texts are no ranges.

  The three products and sums of a clock value are exact as
  long as the seconds are below 2 ^ 53, since all numbers on
  the way are smaller.  A clock value has no hyphen, so that
  two of them are cut apart where they were joined.

  Key definitions include:
    * `Clock.IsField`
    * `Clock.IsClock`

  Main results include:
    * `Clock.read_of_isClock`
    * `Clock.read_eq_error`
    * `TimeRange.read_of_isClock`
    * `TimeRange.exists_read_eq_error`
    * `TimeRange.read_isExact_and_refuses`
-/

namespace Slideshow

------------------------------------------------------------
-- Fields
------------------------------------------------------------

namespace Clock

/- A field is a numeral with blanks around it. -/
def IsField (n : Nat) (field : String) : Prop :=
  ∃ before numeral after,
    field.toList = before ++ (numeral ++ after) ∧
      Chars.AreBlank before ∧ Chars.AreBlank after ∧
      Numeral.IsOf n numeral

/- Three fields with colons between them. -/
inductive IsClock (h m s : Nat) : String → Prop
| fields
    {hours minutes seconds : String}
    (hHours : IsField h hours)
    (hMinutes : IsField m minutes)
    (hSeconds : IsField s seconds) :
    IsClock h m s
      (hours ++ String.singleton ':' ++
        (minutes ++ String.singleton ':' ++ seconds))

/- The characters of a field. -/
theorem IsField.not_mem
    {n : Nat}
    {field : String}
    {c : Char}
    (hField : IsField n field)
    (hVisible : isBlank c = false)
    (hDigit : ¬ c.isDigit = true)
    (hSign : c ≠ '+') :
    c ∉ field.toList := by
  rcases hField with
    ⟨before, numeral, after, hText, hBefore, hAfter,
      hNumeral⟩
  have hInner : c ∉ numeral := by
    intro hMem
    rcases hNumeral.isDigit_or_eq hMem with hIs | hIs
    · exact hDigit hIs
    · exact hSign hIs
  rwa [hText,
    Chars.mem_between_iff _ hVisible hBefore hAfter]

/- A clock value has no hyphen. -/
theorem IsClock.not_mem
    {h m s : Nat}
    {clock : String}
    (hClock : IsClock h m s clock) :
    '-' ∉ clock.toList := by
  have hNone {n : Nat} {field : String}
      (hField : IsField n field) :
      '-' ∉ field.toList :=
    hField.not_mem (by decide) (by decide) (by decide)
  rcases hClock with @⟨hours, minutes, seconds, hHours,
    hMinutes, hSeconds⟩
  simp [hNone hHours, hNone hMinutes, hNone hSeconds]

/- A field is a numeral exactly without its blanks. -/
theorem isField_iff
    {n : Nat}
    {field : String} :
    IsField n field ↔
      Numeral.IsOf n (Text.trim field).toList := by
  rw [Text.trim, String.toList_ofList]
  constructor
  · rintro ⟨before, numeral, after, hText, hBefore, hAfter,
      hNumeral⟩
    have hVisible : ∀ c ∈ numeral, isBlank c = false := by
      intro c hc
      rcases hNumeral.isDigit_or_eq hc with hDigit | rfl
      · exact Chars.isBlank_of_isDigit hDigit
      · decide
    rw [hText, Chars.trim_between numeral hBefore hAfter,
      Chars.trim_eq_self hVisible]
    exact hNumeral
  · intro hNumeral
    rcases Chars.exists_trim field.toList with
      ⟨before, after, hText, hBefore, hAfter⟩
    exact ⟨before, _, after, hText, hBefore, hAfter,
      hNumeral⟩

/- The number of a field is read exactly. -/
theorem exists_readField
    {n : Nat}
    {field : String}
    (clock : String)
    (hField : Numeral.IsOf n (Text.trim field).toList)
    (hLt : n < 2 ^ 53) :
    ∃ x,
      readField clock field = .ok x ∧
        Binary.exactValue? x = some (n : ℚ) := by
  rcases Decimal.exists_read?_of_isOf hField hLt with
    ⟨x, hRead, hValue⟩
  have hFinite := Binary.exists_exactValue?_iff.mp ⟨_, hValue⟩
  exact ⟨x, readField_eq_ok_iff.mpr ⟨hRead, hFinite⟩,
    hValue⟩

------------------------------------------------------------
-- Clock Values
------------------------------------------------------------

section Sums

variable {x y : Float}
variable {n k : Nat}

theorem exactValue?_add
    (hX : Binary.exactValue? x = some (n : ℚ))
    (hY : Binary.exactValue? y = some (k : ℚ))
    (hLt : n + k < 2 ^ 53) :
    Binary.exactValue? (x + y) = some ((n + k : ℕ) : ℚ) := by
  have hRounds := Binary.rounds_add hX hY
  rw [← Nat.cast_add] at hRounds
  exact Binary.exactValue?_of_rounds_natCast hRounds hLt

theorem exactValue?_mul
    (hX : Binary.exactValue? x = some (n : ℚ))
    (hY : Binary.exactValue? y = some (k : ℚ))
    (hLt : n * k < 2 ^ 53) :
    Binary.exactValue? (x * y) = some ((n * k : ℕ) : ℚ) := by
  have hRounds := Binary.rounds_mul hX hY
  rw [← Nat.cast_mul] at hRounds
  exact Binary.exactValue?_of_rounds_natCast hRounds hLt

end Sums

variable {h m s : Nat}
variable {clock : String}

/- The pieces of a clock value are numerals. -/
theorem IsClock.exists_split
    (hClock : IsClock h m s clock) :
    ∃ hours minutes seconds,
      Text.split ':' (Text.trim clock) =
          [hours, minutes, seconds] ∧
        Numeral.IsOf h (Text.trim hours).toList ∧
        Numeral.IsOf m (Text.trim minutes).toList ∧
        Numeral.IsOf s (Text.trim seconds).toList := by
  rcases hClock with @⟨hours, minutes, seconds, hHours,
    hMinutes, hSeconds⟩
  have hPiece {n : Nat} {field : String}
      (hField : IsField n field) :
      Text.split ':' field = [field] :=
    Text.split_eq_singleton_iff.mpr
      ⟨hField.not_mem (by decide) (by decide) (by decide),
        rfl⟩
  have hPieces :=
    Text.map_trim_split_trim ':'
      (hours ++ String.singleton ':' ++
        (minutes ++ String.singleton ':' ++ seconds))
      (by decide)
  rw [Text.split_append ':' hours, hPiece hHours,
    Text.split_append, hPiece hMinutes, hPiece hSeconds]
    at hPieces
  rcases List.map_eq_cons_iff.mp hPieces with
    ⟨first, rest, hSplit, hFirst, hRest⟩
  rcases List.map_eq_cons_iff.mp hRest with
    ⟨second, last, rfl, hSecond, hLast⟩
  rcases List.map_eq_singleton_iff.mp hLast with
    ⟨third, rfl, hThird⟩
  refine ⟨first, second, third, hSplit, ?_, ?_, ?_⟩
  · rw [hFirst]
    exact isField_iff.mp hHours
  · rw [hSecond]
    exact isField_iff.mp hMinutes
  · rw [hThird]
    exact isField_iff.mp hSeconds

/- A clock value is read exactly. -/
theorem read_of_isClock
    (hClock : IsClock h m s clock)
    (hLt : 3600 * h + 60 * m + s < 2 ^ 53) :
    ∃ x,
      read clock = .ok x ∧
        Binary.exactValue? x =
          some ((3600 * h + 60 * m + s : ℕ) : ℚ) := by
  rcases hClock.exists_split with
    ⟨hours, minutes, seconds, hSplit, hHours, hMinutes,
      hSeconds⟩
  rcases exists_readField clock hHours (by omega) with
    ⟨x, hReadX, hX⟩
  rcases exists_readField clock hMinutes (by omega) with
    ⟨y, hReadY, hY⟩
  rcases exists_readField clock hSeconds (by omega) with
    ⟨z, hReadZ, hZ⟩
  rcases exactValue?_factors with ⟨hHour, hMinute⟩
  refine ⟨x * 3600.0 + y * 60.0 + z,
    read_eq_ok_iff.mpr ⟨hours, minutes, seconds, x, y, z,
      hSplit, hReadX, hReadY, hReadZ, rfl⟩, ?_⟩
  have hSum :=
    exactValue?_add
      (exactValue?_add
        (exactValue?_mul hX hHour (by omega))
        (exactValue?_mul hY hMinute (by omega))
        (by omega))
      hZ (by omega)
  rw [hSum, Nat.mul_comm h, Nat.mul_comm m]

/- Any other number of colons is an error. -/
theorem read_eq_error
    (hCount : clock.toList.count ':' ≠ 2) :
    read clock = .error (.clock clock) := by
  have hLength :
      (Text.split ':' (Text.trim clock)).length =
        clock.toList.count ':' + 1 := by
    have hPieces := congrArg List.length
      (Text.map_trim_split_trim ':' clock (by decide))
    rwa [List.length_map, List.length_map,
      Text.length_split ':' clock] at hPieces
  unfold read
  split
  · rename_i hSplit
    rw [hSplit] at hLength
    simp at hLength
    omega
  · rfl

theorem count_of_read
    {x : Float}
    (hRead : read clock = .ok x) :
    clock.toList.count ':' = 2 := by
  by_contra hCount
  rw [read_eq_error hCount] at hRead
  cases hRead

end Clock

------------------------------------------------------------
-- Ranges
------------------------------------------------------------

namespace TimeRange

theorem toList_separator :
    separator.toList = [' '] ++ '-' :: [' '] := by
  decide

/- Two clock values are cut apart where they were joined. -/
theorem splitText_clocks
    {h m s h' m' s' : Nat}
    {start stop : String}
    (hStart : Clock.IsClock h m s start)
    (hStop : Clock.IsClock h' m' s' stop) :
    Text.splitText separator (start ++ separator ++ stop) =
      [start, stop] := by
  have hAlone : ¬ separator.toList <:+: stop.toList := by
    intro hInfix
    exact hStop.not_mem (hInfix.subset (by decide))
  rw [Text.splitText, String.toList_append,
    String.toList_append, List.append_assoc,
    toList_separator,
    Chars.splitText_append_of_not_mem (by decide)
      hStart.not_mem,
    ← toList_separator, Chars.splitText_eq_singleton hAlone,
    List.map_cons, List.map_singleton, String.ofList_toList,
    String.ofList_toList]

/- A range of two clock values is read exactly. -/
theorem read_of_isClock
    {h m s h' m' s' : Nat}
    {start stop : String}
    (hStart : Clock.IsClock h m s start)
    (hStop : Clock.IsClock h' m' s' stop)
    (hStartLt : 3600 * h + 60 * m + s < 2 ^ 53)
    (hStopLt : 3600 * h' + 60 * m' + s' < 2 ^ 53) :
    ∃ range,
      read (start ++ separator ++ stop) = .ok range ∧
        Binary.exactValue? range.start =
          some ((3600 * h + 60 * m + s : ℕ) : ℚ) ∧
        Binary.exactValue? range.stop =
          some ((3600 * h' + 60 * m' + s' : ℕ) : ℚ) := by
  rcases Clock.read_of_isClock hStart hStartLt with
    ⟨x, hReadX, hX⟩
  rcases Clock.read_of_isClock hStop hStopLt with
    ⟨y, hReadY, hY⟩
  exact ⟨⟨x, y⟩,
    read_eq_ok_iff.mpr ⟨start, stop,
      splitText_clocks hStart hStop, hReadX, hReadY⟩,
    hX, hY⟩

/- A text is cut once, or it is no range. -/
theorem read_eq_error
    {text : String}
    (hNot :
      ¬ Chars.Occurs separator.toList 1 text.toList) :
    read text = .error (.interval text) := by
  rw [Chars.occurs_iff (by decide)] at hNot
  unfold read
  split
  · rename_i start stop hPieces
    have hLength := congrArg List.length hPieces
    rw [Text.splitText, List.length_map] at hLength
    exact absurd hLength hNot
  · rfl

/- Both sides of a range have two colons. -/
theorem exists_read_eq_error
    {start stop : String}
    (hCount :
      start.toList.count ':' ≠ 2 ∨
        stop.toList.count ':' ≠ 2) :
    ∃ fault,
      read (start ++ separator ++ stop) = .error fault := by
  cases hRead : read (start ++ separator ++ stop) with
  | error fault =>
      exact ⟨fault, rfl⟩
  | ok range =>
      rcases read_eq_ok_iff.mp hRead with
        ⟨first, second, hPieces, hFirst, hSecond⟩
      have hCut :
          Chars.splitText separator.toList
              (start.toList ++
                (separator.toList ++ stop.toList)) =
            [first.toList, second.toList] := by
        have hChars :=
          congrArg (List.map String.toList) hPieces
        rwa [Text.map_toList_splitText,
          String.toList_append, String.toList_append,
          List.append_assoc] at hChars
      have hColon : ':' ∉ separator.toList := by
        decide
      rcases Chars.count_eq_of_splitText (by decide)
          hColon hCut with ⟨hStart, hStop⟩
      rw [hStart, hStop, Clock.count_of_read hFirst,
        Clock.count_of_read hSecond] at hCount
      simp at hCount

/-
  A clock value of whole numbers is read exactly if its
  seconds are below 2 ^ 53, and so is a range of two such
  values.  A text is refused if the separator does not occur
  once in it, and if one side of it does not have two
  colons.
-/
theorem read_isExact_and_refuses :
    (∀ h m s clock,
        Clock.IsClock h m s clock →
          3600 * h + 60 * m + s < 2 ^ 53 →
          ∃ x,
            Clock.read clock = .ok x ∧
              Binary.exactValue? x =
                some ((3600 * h + 60 * m + s : ℕ) : ℚ)) ∧
      (∀ h m s start h' m' s' stop,
        Clock.IsClock h m s start →
          Clock.IsClock h' m' s' stop →
          3600 * h + 60 * m + s < 2 ^ 53 →
          3600 * h' + 60 * m' + s' < 2 ^ 53 →
          ∃ range,
            read (start ++ " - " ++ stop) = .ok range ∧
              Binary.exactValue? range.start =
                some ((3600 * h + 60 * m + s : ℕ) : ℚ) ∧
              Binary.exactValue? range.stop =
                some ((3600 * h' + 60 * m' + s' : ℕ) :
                  ℚ)) ∧
      (∀ text : String,
        ¬ Chars.Occurs " - ".toList 1 text.toList →
          read text = .error (.interval text)) ∧
      ∀ start stop : String,
        start.toList.count ':' ≠ 2 ∨
            stop.toList.count ':' ≠ 2 →
          ∃ fault,
            read (start ++ " - " ++ stop) =
              .error fault := by
  refine ⟨?_, ?_, ?_, ?_⟩
  · intro h m s clock hClock hLt
    exact Clock.read_of_isClock hClock hLt
  · intro h m s start h' m' s' stop hStart hStop hStartLt
      hStopLt
    exact read_of_isClock hStart hStop hStartLt hStopLt
  · intro text hNot
    exact read_eq_error hNot
  · intro start stop hCount
    exact exists_read_eq_error hCount

/-
  The latest clock value below 2 ^ 53 seconds, a range up to
  it from one with blanks and zeros, two ranges in a row,
  and a range from a value without seconds.
-/
theorem read_isExact_and_refuses_latest :
    Clock.IsClock 2501999792983 36 31
        "2501999792983:36:31" ∧
      Clock.IsClock 1 2 90 " 01 :002:90\t" ∧
      (∃ x,
        Clock.read "2501999792983:36:31" = .ok x ∧
          Binary.exactValue? x =
            some ((2 ^ 53 - 1 : ℕ) : ℚ)) ∧
      (∃ range,
        read " 01 :002:90\t - 2501999792983:36:31" =
            .ok range ∧
          Binary.exactValue? range.start =
            some ((3810 : ℕ) : ℚ) ∧
          Binary.exactValue? range.stop =
            some ((2 ^ 53 - 1 : ℕ) : ℚ)) ∧
      ¬ Chars.Occurs " - ".toList 1
          "0:0:1 - 0:0:2 - 0:0:3".toList ∧
      read "0:0:1 - 0:0:2 - 0:0:3" =
        .error (.interval "0:0:1 - 0:0:2 - 0:0:3") ∧
      "0:1".toList.count ':' ≠ 2 ∧
      ∃ fault, read "0:1 - 0:0:2" = .error fault := by
  have hField {n : Nat} {field : String}
      (hValue :
        Numeral.value?
            (Numeral.unsigned (Text.trim field).toList) =
          some n) :
      Clock.IsField n field :=
    Clock.isField_iff.mpr (Numeral.isOf_iff.mpr hValue)
  have hLatest :
      Clock.IsClock 2501999792983 36 31
        ("2501999792983" ++ String.singleton ':' ++
          ("36" ++ String.singleton ':' ++ "31")) :=
    .fields (hField rfl) (hField rfl) (hField rfl)
  have hPadded :
      Clock.IsClock 1 2 90
        (" 01 " ++ String.singleton ':' ++
          ("002" ++ String.singleton ':' ++ "90\t")) :=
    .fields (hField rfl) (hField rfl) (hField rfl)
  have hTwice :
      ¬ Chars.Occurs " - ".toList 1
        "0:0:1 - 0:0:2 - 0:0:3".toList := by
    rw [Chars.occurs_iff (by decide)]
    decide
  have hShort : "0:1".toList.count ':' ≠ 2 := by
    decide
  rcases read_isExact_and_refuses with
    ⟨hClock, hRange, hOnce, hSides⟩
  exact ⟨hLatest, hPadded,
    hClock _ _ _ _ hLatest (by decide),
    hRange _ _ _ _ _ _ _ _ hPadded hLatest (by decide)
      (by decide),
    hTwice, hOnce _ hTwice, hShort,
    hSides "0:1" "0:0:2" (.inl hShort)⟩

end TimeRange

end Slideshow

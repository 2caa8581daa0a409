import Slideshow.Expr.Lower
import Slideshow.Proofs.Decimal.Exact
import Slideshow.Proofs.Formula.Reader

/-
  This file proves that the filter text of an expression
  reads back as that expression: constants as the literals
  that are printed for them, and the progress as the number
  of the frame over the number of frames.

  Parentheses stand where an operand binds less tightly than
  its place asks for.  So the invariant of the induction is
  about levels: the text of an expression reads at the level
  of its outermost operation (`Expr.reads_chars`), and in
  parentheses, or without need of them, at the level of its
  place (`Formula.Reads.parenthesize`).

  Key definitions include:
    * `Expr.formula`
    * `Expr.HasFiniteConstants`

  Main results include:
    * `Decimal.isLiteral_plain`
    * `Expr.reads_chars`
    * `Expr.read?_lower`
-/

namespace Slideshow

------------------------------------------------------------
-- Printed Numbers
------------------------------------------------------------

namespace Formula

theorem isDigits_toDigits (n : Nat) :
    IsDigits (Nat.toDigits 10 n) where
  nonempty := Nat.toDigits_ne_nil
  digits := fun _ hDigit =>
    Nat.isDigit_of_mem_toDigits (by omega) (by omega) hDigit

/- Digits with zeros in front of them or behind them. -/
theorem IsDigits.append
    {cs ds : List Char}
    (hFirst : IsDigits cs)
    (hSecond : ∀ d ∈ ds, d.isDigit = true) :
    IsDigits (cs ++ ds) where
  nonempty := by
    simp [hFirst.nonempty]
  digits := by
    intro c hc
    rcases List.mem_append.mp hc with hc | hc
    · exact hFirst.digits c hc
    · exact hSecond c hc

theorem IsDigits.of_subset
    {cs ds : List Char}
    (hDigits : IsDigits cs)
    (hSubset : ds ⊆ cs)
    (hNonempty : ds ≠ []) :
    IsDigits ds where
  nonempty := hNonempty
  digits := fun d hd => hDigits.digits d (hSubset hd)

end Formula

namespace Decimal

open Formula

theorem isDigit_of_mem_zeros
    {c : Char}
    {count : Nat}
    (hZero : c ∈ zeros count) :
    c.isDigit = true := by
  rw [List.eq_of_mem_replicate hZero]
  rfl

/- A decimal without an exponent is a magnitude. -/
theorem isMagnitude_positional (d : Decimal) :
    IsMagnitude (positional d) := by
  have hDigits := isDigits_toDigits d.digits
  simp only [positional]
  split
  · exact .whole
      (hDigits.append fun _ => isDigit_of_mem_zeros)
  · rename_i hFraction
    split
    · rename_i hPlaces
      refine .fraction ?_ ?_
      · apply hDigits.of_subset (List.take_subset _ _)
        intro hNone
        have hLength := congrArg List.length hNone
        rw [List.length_take, List.length_nil] at hLength
        omega
      · apply hDigits.of_subset (List.drop_subset _ _)
        intro hNone
        have hLength := congrArg List.length hNone
        rw [List.length_drop, List.length_nil] at hLength
        omega
    · have hZero : IsDigits ['0'] := by
        refine ⟨by simp, ?_⟩
        intro c hc
        rw [List.mem_singleton.mp hc]
        rfl
      refine .fraction hZero ⟨?_, ?_⟩
      · simp [hDigits.nonempty]
      · intro c hc
        rcases List.mem_append.mp hc with hc | hc
        · exact isDigit_of_mem_zeros hc
        · exact hDigits.digits c hc

/- A finite double is printed as a literal. -/
theorem isLiteral_plain
    {x : Float}
    (hFinite : x.isFinite = true) :
    IsLiteral (plain x).toList := by
  rw [plain, String.toList_ofList]
  rcases Binary.exists_exactValue?_iff.mpr hFinite with
    ⟨v, hValue⟩
  rw [Binary.exactValue?] at hValue
  cases hFields : Binary.ofFloat x with
  | nan =>
      rw [hFields] at hValue
      cases hValue
  | infinite negative =>
      rw [hFields] at hValue
      cases hValue
  | finite negative m q =>
      have hMagnitude :
          IsMagnitude
            (if m = 0 then ['0']
              else positional (shortest .up m q)) := by
        split
        · exact .whole (isDigits_toDigits 0)
        · exact isMagnitude_positional _
      cases negative with
      | true => exact .negative hMagnitude
      | false => exact .plain hMagnitude

end Decimal

------------------------------------------------------------
-- Levels
------------------------------------------------------------

theorem Operator.precedence_le (op : Operator) :
    op.precedence ≤ 2 := by
  cases op <;> decide

namespace Formula

/- How tightly a level binds. -/
def Level.rank : Level → Nat
  | .sum => 1
  | .product => 2
  | .factor => 3

/- The level of the operations of an operator. -/
def Level.ofOperator : Operator → Level
  | .add | .sub => .sum
  | .mul | .div => .product

/- The level of the right operands of a level. -/
def Level.above : Level → Level
  | .sum => .product
  | .product => .factor
  | .factor => .factor

theorem Level.rank_ofOperator (op : Operator) :
    (Level.ofOperator op).rank = op.precedence := by
  cases op <;> rfl

/- Right operands bind more tightly by one. -/
theorem Level.rank_above_ofOperator (op : Operator) :
    (Level.ofOperator op).above.rank =
      op.precedence + 1 := by
  cases op <;> rfl

/- What reads at a level also reads at looser ones. -/
theorem Reads.of_rank_le
    {level place : Level}
    {cs : List Char}
    {t : Formula}
    (hReads : Reads level cs t)
    (hRank : place.rank ≤ level.rank) :
    Reads place cs t := by
  cases level with
  | sum =>
      cases place with
      | sum => exact hReads
      | product => exact absurd hRank (by decide)
      | factor => exact absurd hRank (by decide)
  | product =>
      cases place with
      | sum => exact .ofProduct hReads
      | product => exact hReads
      | factor => exact absurd hRank (by decide)
  | factor =>
      cases place with
      | sum => exact .ofProduct (.ofFactor hReads)
      | product => exact .ofFactor hReads
      | factor => exact hReads

/-
  An operand reads at its place if it stands in parentheses
  or binds tightly enough.
-/
theorem Reads.parenthesize
    {level place : Level}
    {cs : List Char}
    {t : Formula}
    {needed : Bool}
    (hReads : Reads level cs t)
    (hNeeded :
      needed = false → place.rank ≤ level.rank) :
    Reads place (Expr.parenthesize needed cs) t := by
  cases needed with
  | false =>
      exact hReads.of_rank_le (hNeeded rfl)
  | true =>
      have hSum : Reads .sum cs t := by
        apply hReads.of_rank_le
        cases level <;> decide
      apply (Reads.parens hSum).of_rank_le
      cases place <;> decide

/- An operation reads at the level of its operator. -/
theorem Reads.binary
    (op : Operator)
    {cs ds : List Char}
    {a b : Formula}
    (hLeft : Reads (.ofOperator op) cs a)
    (hRight : Reads (Level.ofOperator op).above ds b) :
    Reads (.ofOperator op) (cs ++ op.symbol :: ds)
      (.binary op a b) := by
  cases op with
  | add => exact .plus rfl hLeft hRight
  | sub => exact .plus rfl hLeft hRight
  | mul => exact .times rfl hLeft hRight
  | div => exact .times rfl hLeft hRight

end Formula

------------------------------------------------------------
-- Expressions
------------------------------------------------------------

namespace Expr

open Formula

/- All constants of an expression are finite. -/
def HasFiniteConstants : Expr Float → Prop
  | .const c => c.isFinite = true
  | .var _ => True
  | .binary _ left right =>
      left.HasFiniteConstants ∧ right.HasFiniteConstants

/-
  The formula of an expression in a clip of `frames` frames:
  the same tree, with each constant as its printed literal
  and the progress as a quotient.
-/
def formula
    (frames : UInt64) :
    Expr Float → Formula
  | .const c => .literal (Decimal.plain c).toList
  | .var .progress =>
      .binary .div (.name .frame)
        (.literal (Numeral.write frames.toNat).toList)
  | .var .inputWidth => .name .width
  | .var .inputHeight => .name .height
  | .var .zoom => .name .zoom
  | .binary op left right =>
      .binary op (left.formula frames)
        (right.formula frames)

/- The level of the outermost operation. -/
def level : Expr Float → Level
  | .binary op _ _ => .ofOperator op
  | _ => .factor

/- A left operand without parentheses binds as tightly. -/
theorem rank_le_of_not_needsParens_left
    {op : Operator}
    {e : Expr Float}
    (hNone : needsParens op .left e = false) :
    (Level.ofOperator op).rank ≤ e.level.rank := by
  have hBound := op.precedence_le
  rw [Level.rank_ofOperator]
  cases e with
  | const c =>
      exact Nat.le_succ_of_le hBound
  | var v =>
      exact Nat.le_succ_of_le hBound
  | binary inner left right =>
      rw [level, Level.rank_ofOperator]
      simpa [needsParens] using hNone

/- A right operand without parentheses binds more tightly. -/
theorem rank_le_of_not_needsParens_right
    {op : Operator}
    {e : Expr Float}
    (hNone : needsParens op .right e = false) :
    (Level.ofOperator op).above.rank ≤ e.level.rank := by
  have hBound := op.precedence_le
  rw [Level.rank_above_ofOperator]
  cases e with
  | const c =>
      exact Nat.succ_le_succ hBound
  | var v =>
      exact Nat.succ_le_succ hBound
  | binary inner left right =>
      rw [level, Level.rank_ofOperator]
      simp only [needsParens, Bool.or_eq_false_iff,
        decide_eq_false_iff_not, beq_self_eq_true,
        Bool.true_and, beq_eq_false_iff_ne] at hNone
      omega

/- A constant reads as its printed literal. -/
theorem reads_constantChars
    {c : Float}
    (hFinite : c.isFinite = true) :
    Reads .factor (constantChars c)
      (.literal (Decimal.plain c).toList) := by
  have hLiteral :
      Reads .factor (Decimal.plain c).toList
        (.literal (Decimal.plain c).toList) :=
    .literal (Decimal.isLiteral_plain hFinite)
  apply hLiteral.parenthesize
  intro _
  exact le_refl _

/- The progress reads as a quotient in parentheses. -/
theorem reads_variableChars
    (frames : UInt64)
    (v : Variable) :
    Reads .factor (variableChars frames v)
      ((var v : Expr Float).formula frames) := by
  cases v with
  | progress =>
      have hLiteral :
          IsLiteral
            (Numeral.write frames.toNat).toList := by
        rw [Numeral.write, String.toList_ofList]
        exact .plain (.whole (isDigits_toDigits _))
      have hQuotient :
          Reads .product
            (FilterName.frame.chars ++
              '/' :: (Numeral.write frames.toNat).toList)
            ((var .progress : Expr Float).formula frames) :=
        .times rfl (.ofFactor (.name .frame))
          (.literal hLiteral)
      exact .parens (.ofProduct hQuotient)
  | inputWidth => exact .name .width
  | inputHeight => exact .name .height
  | zoom => exact .name .zoom

/-
  The text of an expression reads at the level of its
  outermost operation.
-/
theorem reads_chars
    (frames : UInt64)
    {e : Expr Float}
    (hFinite : e.HasFiniteConstants) :
    Reads e.level (chars frames e) (e.formula frames) := by
  induction e with
  | const c =>
      exact reads_constantChars hFinite
  | var v =>
      exact reads_variableChars frames v
  | binary op left right ihLeft ihRight =>
      have hLeft :
          Reads (.ofOperator op)
            (parenthesize (needsParens op .left left)
              (chars frames left))
            (left.formula frames) :=
        (ihLeft hFinite.1).parenthesize
          rank_le_of_not_needsParens_left
      have hRight :
          Reads (Level.ofOperator op).above
            (parenthesize (needsParens op .right right)
              (chars frames right))
            (right.formula frames) :=
        (ihRight hFinite.2).parenthesize
          rank_le_of_not_needsParens_right
      exact Reads.binary op hLeft hRight

/-
  The filter text of an expression with finite constants is
  read back, as a whole, as the formula of the expression,
  and the rules of the grammar derive no other formula.
-/
theorem read?_lower
    (e : Expr Float)
    (frames : UInt64)
    (hFinite : e.HasFiniteConstants) :
    Formula.read? (e.lower frames).toList =
        some (e.formula frames) ∧
      ∀ t,
        Reads .sum (e.lower frames).toList t ↔
          t = e.formula frames := by
  have hReads :
      Reads .sum (e.lower frames).toList
        (e.formula frames) := by
    rw [lower, String.toList_ofList]
    apply (reads_chars frames hFinite).of_rank_le
    cases e.level <;> decide
  refine ⟨read?_eq_some_iff.mpr hReads, ?_⟩
  intro t
  constructor
  · exact hReads.unique
  · rintro rfl
    exact hReads

/-
  A difference whose right operand is a quotient by a
  difference, with a negative constant and the progress.
-/
theorem read?_lower_nested :
    (const 1 -
        .var .inputWidth /
          (const (-0.5) - .var .progress) :
        Expr Float).HasFiniteConstants ∧
      Formula.read?
          (lower 8
            (const 1 -
              .var .inputWidth /
                (const (-0.5) - .var .progress))).toList =
        some
          (.binary .sub (.literal (Decimal.plain 1).toList)
            (.binary .div (.name .width)
              (.binary .sub
                (.literal (Decimal.plain (-0.5)).toList)
                (.binary .div (.name .frame)
                  (.literal
                    (Numeral.write 8).toList))))) := by
  have hFinite :
      (const 1 -
          .var .inputWidth /
            (const (-0.5) - .var .progress) :
          Expr Float).HasFiniteConstants :=
    ⟨rfl, trivial, rfl, trivial⟩
  exact ⟨hFinite, (read?_lower _ 8 hFinite).1⟩

end Expr

end Slideshow

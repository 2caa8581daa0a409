import Mathlib.Data.List.TakeWhile
import Slideshow.Proofs.Formula.Grammar

/-
  This file proves that the reader of formulas finds exactly
  what the rules derive, so that a text derives one formula
  at most.

  The rules are left-recursive and the reader is not.  So
  completeness is a statement about what comes behind a
  derived text (`Formula.IsFound`): reading it is going on
  with its formula in front of the rest.

  Key definitions include:
    * `Formula.IsSound`
    * `Formula.IsFound`

  Main results include:
    * `Formula.read?_eq_some_iff`
    * `Formula.Reads.unique`
-/

namespace Slideshow

namespace Formula

------------------------------------------------------------
-- What the Reader Finds Is Derived
------------------------------------------------------------

/- What is taken off and what is left make up the text. -/
theorem isDigits_of_takeDigits?
    {cs ds rest : List Char}
    (hTake : takeDigits? cs = some (ds, rest)) :
    cs = ds ++ rest ∧ IsDigits ds := by
  unfold takeDigits? at hTake
  split at hTake
  · cases hTake
  · rename_i hNonempty
    cases hTake
    refine ⟨List.takeWhile_append_dropWhile.symm, hNonempty,
      ?_⟩
    intro c hc
    exact List.mem_takeWhile_imp hc

/- A magnitude that is taken off follows the rules. -/
theorem isMagnitude_of_takeMagnitude?
    {cs ds rest : List Char}
    (hTake : takeMagnitude? cs = some (ds, rest)) :
    cs = ds ++ rest ∧ IsMagnitude ds := by
  unfold takeMagnitude? at hTake
  split at hTake
  · cases hTake
  · rename_i whole tail hWhole
    rcases isDigits_of_takeDigits? hWhole with
      ⟨rfl, hDigits⟩
    split at hTake
    · cases hTake
      exact ⟨rfl, .whole hDigits⟩
    · rename_i fraction rest hFraction
      rcases isDigits_of_takeDigits? hFraction with
        ⟨rfl, hPlaces⟩
      cases hTake
      exact ⟨by simp, .fraction hDigits hPlaces⟩
  · rename_i whole tail _ hWhole
    cases hTake
    rcases isDigits_of_takeDigits? hWhole with
      ⟨rfl, hDigits⟩
    exact ⟨rfl, .whole hDigits⟩

/- A literal that is taken off follows the rules. -/
theorem isLiteral_of_takeLiteral?
    {cs ds rest : List Char}
    (hTake : takeLiteral? cs = some (ds, rest)) :
    cs = ds ++ rest ∧ IsLiteral ds := by
  unfold takeLiteral? at hTake
  split at hTake
  · rw [Option.map_eq_some_iff] at hTake
    rcases hTake with ⟨⟨digits, tail⟩, hDigits, hEq⟩
    cases hEq
    rcases isMagnitude_of_takeMagnitude? hDigits with
      ⟨rfl, hMagnitude⟩
    exact ⟨rfl, .negative hMagnitude⟩
  · rcases isMagnitude_of_takeMagnitude? hTake with
      ⟨rfl, hMagnitude⟩
    exact ⟨rfl, .plain hMagnitude⟩

theorem eq_of_takeName?
    {cs rest : List Char}
    {n : FilterName}
    (hTake : takeName? cs = some (n, rest)) :
    cs = n.chars ++ rest := by
  unfold takeName? at hTake
  split at hTake <;> cases hTake <;> rfl

/-
  A reader is sound for a rule if the text it takes off is
  derived by the rule.
-/
def IsSound
    (reader : Reader)
    (rule : List Char → Formula → Prop) : Prop :=
  ∀ cs t rest,
    reader cs = some (t, rest) →
      ∃ used, cs = used ++ rest ∧ rule used t

/- Names and literals are factors. -/
theorem atom?_isSound : IsSound atom? (Reads .factor) := by
  intro cs t rest hRead
  unfold atom? at hRead
  split at hRead
  · rename_i n tail hName
    cases hRead
    exact ⟨n.chars, eq_of_takeName? hName, .name n⟩
  · rw [Option.map_eq_some_iff] at hRead
    rcases hRead with ⟨⟨digits, tail⟩, hLiteral, hEq⟩
    cases hEq
    rcases isLiteral_of_takeLiteral? hLiteral with
      ⟨hText, hLiteral⟩
    exact ⟨digits, hText, .literal hLiteral⟩

section Sound

variable {operator? : Char → Option Operator}
variable {operand? : Reader}
variable {rule operandRule : List Char → Formula → Prop}

/-
  Going on behind a derived text derives a longer one.  The
  induction is on the operators that may still follow.
-/
theorem chain?_isSound
    (hOperand : IsSound operand? operandRule)
    (hRule :
      ∀ cs ds c op a b,
        operator? c = some op → rule cs a →
          operandRule ds b →
            rule (cs ++ c :: ds) (.binary op a b))
    {fuel : Nat}
    {before cs rest : List Char}
    {left t : Formula}
    (hLeft : rule before left)
    (hRead :
      chain? operator? operand? fuel left cs =
        some (t, rest)) :
    ∃ used, cs = used ++ rest ∧ rule (before ++ used) t := by
  induction fuel generalizing before cs left with
  | zero =>
      rw [chain?] at hRead
      · cases hRead
        exact ⟨[], rfl, by simpa using hLeft⟩
      · simp
  | succ fuel ih =>
      cases cs with
      | nil =>
          cases hRead
          exact ⟨[], rfl, by simpa using hLeft⟩
      | cons c cs =>
          rw [chain?] at hRead
          split at hRead
          · cases hRead
            exact ⟨[], rfl, by simpa using hLeft⟩
          · rename_i op hOperator
            split at hRead
            · cases hRead
            · rename_i right tail hRight
              rcases hOperand _ _ _ hRight with
                ⟨middle, rfl, hMiddle⟩
              have hLonger :=
                hRule before middle c op left right
                  hOperator hLeft hMiddle
              rcases ih hLonger hRead with
                ⟨used, rfl, hAll⟩
              refine ⟨c :: (middle ++ used), by simp, ?_⟩
              simpa using hAll

/- A level reads what its rules derive. -/
theorem level?_isSound
    (hOperand : IsSound operand? operandRule)
    (hFirst : ∀ cs t, operandRule cs t → rule cs t)
    (hRule :
      ∀ cs ds c op a b,
        operator? c = some op → rule cs a →
          operandRule ds b →
            rule (cs ++ c :: ds) (.binary op a b)) :
    IsSound (level? operator? operand?) rule := by
  intro cs t rest hRead
  unfold level? at hRead
  split at hRead
  · cases hRead
  · rename_i first tail hOperandRead
    rcases hOperand _ _ _ hOperandRead with
      ⟨before, rfl, hBefore⟩
    rcases chain?_isSound hOperand hRule
        (hFirst _ _ hBefore) hRead with
      ⟨used, rfl, hAll⟩
    exact ⟨before ++ used, by simp, hAll⟩

end Sound

theorem sum?_isSound
    {factor? : Reader}
    (hFactor : IsSound factor? (Reads .factor)) :
    IsSound (sum? factor?) (Reads .sum) := by
  have hProduct :
      IsSound (product? factor?) (Reads .product) :=
    level?_isSound hFactor (fun _ _ => .ofFactor)
      (fun _ _ _ _ _ _ => .times)
  exact level?_isSound hProduct (fun _ _ => .ofProduct)
    (fun _ _ _ _ _ _ => .plus)

/- Factors are sound at every depth of parentheses. -/
theorem factor?_isSound
    (depth : Nat) :
    IsSound (factor? depth) (Reads .factor) := by
  induction depth with
  | zero =>
      intro cs t rest hRead
      rw [factor?] at hRead
      · exact atom?_isSound cs t rest hRead
      · simp
  | succ depth ih =>
      intro cs t rest hRead
      unfold factor? at hRead
      split at hRead
      · rename_i inner tail hDepth
        cases hDepth
        split at hRead
        · rename_i hSum
          cases hRead
          rcases sum?_isSound ih _ _ _ hSum with
            ⟨used, rfl, hInner⟩
          exact ⟨'(' :: (used ++ [')']), by simp,
            .parens hInner⟩
        · cases hRead
      · exact atom?_isSound _ t rest hRead

/- What is read as a whole is a sum. -/
theorem reads_of_read?
    {cs : List Char}
    {t : Formula}
    (hRead : read? cs = some t) :
    Reads .sum cs t := by
  unfold read? at hRead
  split at hRead
  · rename_i t hSum
    cases hRead
    rcases sum?_isSound (factor?_isSound _) _ _ _ hSum with
      ⟨used, hText, hReads⟩
    rw [List.append_nil] at hText
    rwa [hText]
  · cases hRead

------------------------------------------------------------
-- What Is Derived Is Found
------------------------------------------------------------

/-
  A character behind which no text of a level goes on: no
  more digits, no point, and behind a sum no operator of
  its products.
-/
def Level.endsBefore (level : Level) (c : Char) : Bool :=
  !c.isDigit && c != '.' &&
    (level != .sum || (productOperator? c).isNone)

/- A rest behind which a text of a level does not go on. -/
def Level.EndsAt (level : Level) (rest : List Char) : Prop :=
  ∀ c ∈ rest.head?, level.endsBefore c = true

/- Digits are taken up to what is no digit. -/
theorem takeDigits?_append
    {ds rest : List Char}
    (hDigits : IsDigits ds)
    (hEnd : ∀ c ∈ rest.head?, c.isDigit = false) :
    takeDigits? (ds ++ rest) = some (ds, rest) := by
  have hNone : rest.takeWhile Char.isDigit = [] := by
    cases rest with
    | nil => rfl
    | cons c cs => simp [hEnd c rfl]
  have hAll : rest.dropWhile Char.isDigit = rest := by
    cases rest with
    | nil => rfl
    | cons c cs => simp [hEnd c rfl]
  rw [takeDigits?,
    List.takeWhile_append_of_pos hDigits.digits,
    List.dropWhile_append_of_pos hDigits.digits, hNone,
    hAll, List.append_nil, if_neg hDigits.nonempty]

/- A magnitude is taken whole. -/
theorem takeMagnitude?_append
    {cs rest : List Char}
    (hMagnitude : IsMagnitude cs)
    (hEnd : Level.factor.EndsAt rest) :
    takeMagnitude? (cs ++ rest) = some (cs, rest) := by
  have hNoDigit : ∀ c ∈ rest.head?, c.isDigit = false := by
    intro c hc
    have hEnds := hEnd c hc
    simp only [Level.endsBefore, Bool.and_eq_true] at hEnds
    simpa using hEnds.1.1
  have hNoPoint : ∀ tail, rest ≠ '.' :: tail := by
    rintro tail rfl
    have hEnds := hEnd '.' rfl
    simp [Level.endsBefore] at hEnds
  cases hMagnitude with
  | whole hWhole =>
      have hTake := takeDigits?_append hWhole hNoDigit
      unfold takeMagnitude?
      rw [hTake]
      split
      · rename_i hEq
        cases hEq
      · rename_i hEq
        cases hEq
        exact absurd rfl (hNoPoint _)
      · rename_i hEq
        cases hEq
        rfl
  | @fraction ws ds hWhole hFraction =>
      have hTakeWhole :
          takeDigits? (ws ++ ('.' :: (ds ++ rest))) =
            some (ws, '.' :: (ds ++ rest)) := by
        apply takeDigits?_append hWhole
        intro c hc
        cases hc
        rfl
      have hTakeFraction :=
        takeDigits?_append hFraction hNoDigit
      rw [List.append_assoc, List.cons_append,
        takeMagnitude?, hTakeWhole]
      simp only [hTakeFraction]

/- The first character of a magnitude is a digit. -/
theorem IsMagnitude.exists_digit
    {cs : List Char}
    (hMagnitude : IsMagnitude cs) :
    ∃ c ds, cs = c :: ds ∧ c.isDigit = true := by
  have hFirst :
      ∀ {ws : List Char}, IsDigits ws →
        ∃ c ds, ws = c :: ds ∧ c.isDigit = true := by
    intro ws hDigits
    cases ws with
    | nil => exact absurd rfl hDigits.nonempty
    | cons c ds =>
        exact ⟨c, ds, rfl,
          hDigits.digits c List.mem_cons_self⟩
  cases hMagnitude with
  | whole hWhole =>
      exact hFirst hWhole
  | fraction hWhole _ =>
      rcases hFirst hWhole with ⟨c, ds, rfl, hDigit⟩
      exact ⟨c, ds ++ '.' :: _, rfl, hDigit⟩

/- A literal is taken whole. -/
theorem takeLiteral?_append
    {cs rest : List Char}
    (hLiteral : IsLiteral cs)
    (hEnd : Level.factor.EndsAt rest) :
    takeLiteral? (cs ++ rest) = some (cs, rest) := by
  cases hLiteral with
  | plain hMagnitude =>
      rcases hMagnitude.exists_digit with
        ⟨c, ds, rfl, hDigit⟩
      rw [← takeMagnitude?_append hMagnitude hEnd]
      unfold takeLiteral?
      split
      · rename_i hEq
        cases hEq
        exact absurd hDigit (by decide)
      · rfl
  | negative hMagnitude =>
      rw [List.cons_append, takeLiteral?,
        takeMagnitude?_append hMagnitude hEnd]
      rfl

/- A literal starts with a digit or with a minus. -/
theorem IsLiteral.exists_head
    {cs : List Char}
    (hLiteral : IsLiteral cs) :
    ∃ c ds,
      cs = c :: ds ∧ (c = '-' ∨ c.isDigit = true) := by
  cases hLiteral with
  | plain hMagnitude =>
      rcases hMagnitude.exists_digit with
        ⟨c, ds, rfl, hDigit⟩
      exact ⟨c, ds, rfl, .inr hDigit⟩
  | negative hMagnitude =>
      exact ⟨'-', _, rfl, .inl rfl⟩

/- No name starts as a literal does. -/
theorem takeName?_eq_none
    {c : Char}
    {cs : List Char}
    (hHead : c = '-' ∨ c.isDigit = true) :
    takeName? (c :: cs) = none := by
  unfold takeName?
  split
  all_goals first
    | rfl
    | rename_i hEq
      cases hEq
      exact absurd hHead (by decide)

theorem atom?_literal
    {cs rest : List Char}
    (hLiteral : IsLiteral cs)
    (hEnd : Level.factor.EndsAt rest) :
    atom? (cs ++ rest) = some (.literal cs, rest) := by
  have hNoName : takeName? (cs ++ rest) = none := by
    rcases hLiteral.exists_head with ⟨c, ds, rfl, hHead⟩
    exact takeName?_eq_none hHead
  rw [atom?, hNoName, takeLiteral?_append hLiteral hEnd]
  rfl

theorem atom?_name
    (n : FilterName)
    (rest : List Char) :
    atom? (n.chars ++ rest) = some (.name n, rest) := by
  cases n <;> rfl

theorem factor?_eq_atom?
    {cs : List Char}
    (depth : Nat)
    (hHead : ∀ tail, cs ≠ '(' :: tail) :
    factor? depth cs = atom? cs := by
  unfold factor?
  split
  · exact absurd rfl (hHead _)
  · rfl

section Chain

variable {operator? : Char → Option Operator}
variable {operand? : Reader}
variable {left : Formula}

/- A chain ends where no operator follows. -/
theorem chain?_end
    {rest : List Char}
    (fuel : Nat)
    (hEnd : ∀ c ∈ rest.head?, operator? c = none) :
    chain? operator? operand? fuel left rest =
      some (left, rest) := by
  cases rest with
  | nil =>
      cases fuel with
      | zero => rfl
      | succ fuel => rfl
  | cons c cs =>
      cases fuel with
      | zero => rfl
      | succ fuel =>
          rw [chain?, hEnd c rfl]

/- A chain goes on with an operator and its operand. -/
theorem chain?_cons
    {c : Char}
    {cs rest : List Char}
    {op : Operator}
    {right : Formula}
    (fuel : Nat)
    (hOperator : operator? c = some op)
    (hOperand : operand? cs = some (right, rest)) :
    chain? operator? operand? (fuel + 1) left (c :: cs) =
      chain? operator? operand? fuel (.binary op left right)
        rest := by
  rw [chain?, hOperator, hOperand]

end Chain

/-
  A derived text is found: in front of any rest behind which
  it does not go on, a factor is read off, and reading a
  product or a sum is going on with its formula, with enough
  fuel for all that is left.
-/
def IsFound
    (cs : List Char)
    (t : Formula) :
    Level → Prop
  | .factor =>
      ∀ depth rest, cs.length ≤ depth →
        Level.factor.EndsAt rest →
          factor? depth (cs ++ rest) = some (t, rest)
  | .product =>
      ∀ depth rest, cs.length ≤ depth →
        Level.product.EndsAt rest →
          ∃ fuel, rest.length ≤ fuel ∧
            product? (factor? depth) (cs ++ rest) =
              chain? productOperator? (factor? depth) fuel t
                rest
  | .sum =>
      ∀ depth rest, cs.length ≤ depth →
        Level.sum.EndsAt rest →
          ∃ fuel, rest.length ≤ fuel ∧
            sum? (factor? depth) (cs ++ rest) =
              chain? sumOperator?
                (product? (factor? depth)) fuel t rest

theorem Level.EndsAt.productOperator?_eq_none
    {rest : List Char}
    (hEnd : Level.sum.EndsAt rest) :
    ∀ c ∈ rest.head?, productOperator? c = none := by
  intro c hc
  have hEnds := hEnd c hc
  simp only [Level.endsBefore, Bool.and_eq_true] at hEnds
  simpa using hEnds.2

theorem Level.EndsAt.of_sum
    {rest : List Char}
    {level : Level}
    (hEnd : Level.sum.EndsAt rest) :
    level.EndsAt rest := by
  intro c hc
  have hEnds := hEnd c hc
  simp only [Level.endsBefore, Bool.and_eq_true] at hEnds ⊢
  exact ⟨hEnds.1, by simp [hEnds.2.symm]⟩

/- An operator of products ends a factor. -/
theorem endsAt_of_productOperator?
    {c : Char}
    {cs : List Char}
    {op : Operator}
    (hOperator : productOperator? c = some op) :
    Level.product.EndsAt (c :: cs) := by
  intro d hd
  cases hd
  unfold productOperator? at hOperator
  split at hOperator
  · rfl
  · rfl
  · cases hOperator

/- An operator of sums ends a sum. -/
theorem endsAt_of_sumOperator?
    {c : Char}
    {cs : List Char}
    {op : Operator}
    (hOperator : sumOperator? c = some op) :
    Level.sum.EndsAt (c :: cs) := by
  intro d hd
  cases hd
  unfold sumOperator? at hOperator
  split at hOperator
  · rfl
  · rfl
  · cases hOperator

theorem endsAt_close (cs : List Char) :
    Level.sum.EndsAt (')' :: cs) := by
  intro c hc
  cases hc
  rfl

/- A found sum in parentheses is a found factor. -/
theorem IsFound.parens
    {cs : List Char}
    {t : Formula}
    (hSum : IsFound cs t .sum) :
    IsFound ('(' :: (cs ++ [')'])) t .factor := by
  intro depth rest hDepth hEnd
  cases depth with
  | zero =>
      exact absurd hDepth (by simp)
  | succ depth =>
      have hInner : cs.length ≤ depth := by
        simp only [List.length_cons, List.length_append,
          List.length_nil] at hDepth
        omega
      rcases hSum depth (')' :: rest) hInner
          (endsAt_close rest) with
        ⟨fuel, _, hRead⟩
      rw [chain?_end fuel (by rintro c ⟨⟩; rfl)] at hRead
      have hText :
          '(' :: (cs ++ [')']) ++ rest =
            '(' :: (cs ++ ')' :: rest) := by
        simp
      rw [hText, factor?, hRead]
      rfl

theorem IsFound.ofFactor
    {cs : List Char}
    {t : Formula}
    (hFactor : IsFound cs t .factor) :
    IsFound cs t .product := by
  intro depth rest hDepth hEnd
  refine ⟨rest.length, le_refl _, ?_⟩
  rw [product?, level?, hFactor depth rest hDepth hEnd]

/- A found factor behind an operator goes on a product. -/
theorem IsFound.times
    {cs ds : List Char}
    {c : Char}
    {op : Operator}
    {a b : Formula}
    (hOperator : productOperator? c = some op)
    (hLeft : IsFound cs a .product)
    (hRight : IsFound ds b .factor) :
    IsFound (cs ++ c :: ds) (.binary op a b) .product := by
  intro depth rest hDepth hEnd
  simp only [List.length_append, List.length_cons] at hDepth
  rcases hLeft depth (c :: (ds ++ rest)) (by omega)
      (endsAt_of_productOperator? hOperator) with
    ⟨fuel, hFuel, hRead⟩
  cases fuel with
  | zero =>
      exact absurd hFuel (by simp)
  | succ fuel =>
      simp only [List.length_cons, List.length_append]
        at hFuel
      refine ⟨fuel, by omega, ?_⟩
      rw [List.append_assoc, List.cons_append, hRead]
      exact chain?_cons fuel hOperator
        (hRight depth rest (by omega) hEnd)

/- Where a sum ends, a found product is read off. -/
theorem IsFound.product?_eq
    {cs rest : List Char}
    {t : Formula}
    {depth : Nat}
    (hProduct : IsFound cs t .product)
    (hDepth : cs.length ≤ depth)
    (hEnd : Level.sum.EndsAt rest) :
    product? (factor? depth) (cs ++ rest) =
      some (t, rest) := by
  rcases hProduct depth rest hDepth hEnd.of_sum with
    ⟨fuel, _, hRead⟩
  rw [hRead]
  exact chain?_end fuel hEnd.productOperator?_eq_none

theorem IsFound.ofProduct
    {cs : List Char}
    {t : Formula}
    (hProduct : IsFound cs t .product) :
    IsFound cs t .sum := by
  intro depth rest hDepth hEnd
  refine ⟨rest.length, le_refl _, ?_⟩
  rw [sum?, level?, hProduct.product?_eq hDepth hEnd]

/- A found product behind an operator goes on a sum. -/
theorem IsFound.plus
    {cs ds : List Char}
    {c : Char}
    {op : Operator}
    {a b : Formula}
    (hOperator : sumOperator? c = some op)
    (hLeft : IsFound cs a .sum)
    (hRight : IsFound ds b .product) :
    IsFound (cs ++ c :: ds) (.binary op a b) .sum := by
  intro depth rest hDepth hEnd
  simp only [List.length_append, List.length_cons] at hDepth
  rcases hLeft depth (c :: (ds ++ rest)) (by omega)
      (endsAt_of_sumOperator? hOperator) with
    ⟨fuel, hFuel, hRead⟩
  cases fuel with
  | zero =>
      exact absurd hFuel (by simp)
  | succ fuel =>
      simp only [List.length_cons, List.length_append]
        at hFuel
      refine ⟨fuel, by omega, ?_⟩
      rw [List.append_assoc, List.cons_append, hRead]
      exact chain?_cons fuel hOperator
        (hRight.product?_eq (by omega) hEnd)

/- Every derived text is found. -/
theorem isFound_of_reads
    {level : Level}
    {cs : List Char}
    {t : Formula}
    (hReads : Reads level cs t) :
    IsFound cs t level := by
  induction hReads with
  | name n =>
      intro depth rest _ _
      rw [factor?_eq_atom? depth, atom?_name]
      intro tail
      cases n <;> simp [FilterName.chars]
  | literal hLiteral =>
      intro depth rest _ hEnd
      rw [factor?_eq_atom? depth, atom?_literal hLiteral hEnd]
      rintro tail hEq
      rcases hLiteral.exists_head with ⟨c, ds, rfl, hHead⟩
      cases hEq
      exact absurd hHead (by decide)
  | parens _ ih =>
      exact ih.parens
  | ofFactor _ ih =>
      exact ih.ofFactor
  | times hOperator _ _ ihLeft ihRight =>
      exact ihLeft.times hOperator ihRight
  | ofProduct _ ih =>
      exact ih.ofProduct
  | plus hOperator _ _ ihLeft ihRight =>
      exact ihLeft.plus hOperator ihRight

------------------------------------------------------------
-- The Reader and the Rules
------------------------------------------------------------

/- The reader finds exactly what the rules derive. -/
theorem read?_eq_some_iff
    {cs : List Char}
    {t : Formula} :
    read? cs = some t ↔ Reads .sum cs t := by
  refine ⟨reads_of_read?, ?_⟩
  intro hReads
  have hEnd : Level.sum.EndsAt [] := by
    rintro c ⟨⟩
  rcases isFound_of_reads hReads cs.length [] (le_refl _)
      hEnd with
    ⟨fuel, _, hRead⟩
  rw [chain?_end fuel (by rintro c ⟨⟩),
    List.append_nil] at hRead
  rw [read?, hRead]

/- A text derives one formula at most. -/
theorem Reads.unique
    {cs : List Char}
    {t t' : Formula}
    (hFirst : Reads .sum cs t)
    (hSecond : Reads .sum cs t') :
    t' = t := by
  have hRead := read?_eq_some_iff.mpr hFirst
  rw [read?_eq_some_iff.mpr hSecond] at hRead
  exact Option.some.inj hRead

end Formula

end Slideshow

import Slideshow.Expr.Eval
import Slideshow.Proofs.Outcome

/-
  This file proves what the value of an expression depends
  on and what it is made of.

  The value is the same wherever the variables that occur in
  the expression stand for the same numbers.  It is a finite
  number, and so is the value of every part.  The zoom is
  missing only where an expression refers to it.

  Key definitions include:
    * `Env.AgreesOn`
    * `Expr.IsPartOf`

  Main results include:
    * `Expr.eval_const_eq_ok_iff`
    * `Expr.eval_var_eq_ok_iff`
    * `Expr.eval_binary_eq_ok_iff`
    * `Expr.eval_eq_ok_of_agreesOn`
    * `Expr.isFinite_of_eval`
    * `Expr.exists_eval_of_isPartOf`
    * `Expr.failsAs_eval`
-/

namespace Slideshow

/-
  Two environments agree on an expression if each variable
  that occurs in it stands for the same number in both, or
  is bound in neither.
-/
def Env.AgreesOn
    {ν : Type}
    (env env' : Env ν)
    (e : Expr ν) : Prop :=
  ∀ v,
    e.references v = true → env.lookup? v = env'.lookup? v

theorem Env.AgreesOn.symm
    {ν : Type}
    {env env' : Env ν}
    {e : Expr ν}
    (hAgrees : env.AgreesOn env' e) :
    env'.AgreesOn env e :=
  fun v hOccurs => (hAgrees v hOccurs).symm

namespace Expr

/- An expression occurs in another one, or is that one. -/
inductive IsPartOf
    {ν : Type}
    (part : Expr ν) :
    Expr ν → Prop
| whole : IsPartOf part part
| left
    {op : Operator}
    {left right : Expr ν}
    (hLeft : IsPartOf part left) :
    IsPartOf part (binary op left right)
| right
    {op : Operator}
    {left right : Expr ν}
    (hRight : IsPartOf part right) :
    IsPartOf part (binary op left right)

variable {env env' : Env Float}
variable {e left right : Expr Float}
variable {op : Operator}
variable {x y : Float}

------------------------------------------------------------
-- Values of Constructors
------------------------------------------------------------

theorem finite_eq_ok_iff :
    finite env x = .ok y ↔ x.isFinite = true ∧ y = x := by
  unfold finite
  by_cases hFinite : x.isFinite = true
  · simp [hFinite, eq_comm]
  · simp [hFinite]

/- The value of a constant is the constant. -/
theorem eval_const_eq_ok_iff :
    (const x).eval env = .ok y ↔
      x.isFinite = true ∧ y = x := by
  rw [eval, finite_eq_ok_iff]

/- The value of a variable is what it stands for. -/
theorem eval_var_eq_ok_iff
    {v : Variable} :
    (var v).eval env = .ok y ↔
      env.lookup? v = some y ∧ y.isFinite = true := by
  rw [eval]
  cases hLookup : env.lookup? v with
  | none =>
      simp
  | some x =>
      simp only [finite_eq_ok_iff, Option.some.injEq]
      constructor
      · rintro ⟨hFinite, rfl⟩
        exact ⟨rfl, hFinite⟩
      · rintro ⟨rfl, hFinite⟩
        exact ⟨hFinite, rfl⟩

/- The value of an operation is that on both values. -/
theorem eval_binary_eq_ok_iff :
    (binary op left right).eval env = .ok y ↔
      ∃ a b,
        left.eval env = .ok a ∧ right.eval env = .ok b ∧
          (op.apply a b).isFinite = true ∧
          y = op.apply a b := by
  simp only [eval, Outcome.bind_eq_ok_iff, finite_eq_ok_iff]
  constructor
  · rintro ⟨a, hLeft, b, hRight, hFinite, hEq⟩
    exact ⟨a, b, hLeft, hRight, hFinite, hEq⟩
  · rintro ⟨a, b, hLeft, hRight, hFinite, hEq⟩
    exact ⟨a, hLeft, b, hRight, hFinite, hEq⟩

------------------------------------------------------------
-- Agreement
------------------------------------------------------------

theorem references_binary_iff
    {v : Variable} :
    (binary op left right).references v = true ↔
      left.references v = true ∨
        right.references v = true := by
  rw [references, Bool.or_eq_true]

/- What agrees on an operation agrees on both operands. -/
theorem agreesOn_binary_iff :
    env.AgreesOn env' (binary op left right) ↔
      env.AgreesOn env' left ∧ env.AgreesOn env' right := by
  simp only [Env.AgreesOn, references_binary_iff]
  constructor
  · intro hAgrees
    exact ⟨fun v hLeft => hAgrees v (.inl hLeft),
      fun v hRight => hAgrees v (.inr hRight)⟩
  · rintro ⟨hLeft, hRight⟩ v (hOccurs | hOccurs)
    · exact hLeft v hOccurs
    · exact hRight v hOccurs

/- A value is found wherever the variables agree. -/
theorem eval_eq_ok_of_agreesOn
    (hAgrees : env.AgreesOn env' e)
    (hEval : e.eval env = .ok x) :
    e.eval env' = .ok x := by
  induction e generalizing x with
  | const c =>
      rw [eval_const_eq_ok_iff] at hEval ⊢
      exact hEval
  | var v =>
      have hSame := hAgrees v (by simp [references])
      rw [eval_var_eq_ok_iff] at hEval ⊢
      rw [← hSame]
      exact hEval
  | binary op left right ihLeft ihRight =>
      rcases agreesOn_binary_iff.mp hAgrees with
        ⟨hAgreesLeft, hAgreesRight⟩
      rcases eval_binary_eq_ok_iff.mp hEval with
        ⟨a, b, hLeft, hRight, hResult⟩
      exact eval_binary_eq_ok_iff.mpr
        ⟨a, b, ihLeft hAgreesLeft hLeft,
          ihRight hAgreesRight hRight, hResult⟩

------------------------------------------------------------
-- Finite Values
------------------------------------------------------------

/- A value is finite. -/
theorem isFinite_of_eval
    (hEval : e.eval env = .ok x) :
    x.isFinite = true := by
  cases e with
  | const c =>
      rcases eval_const_eq_ok_iff.mp hEval with
        ⟨hFinite, rfl⟩
      exact hFinite
  | var v =>
      exact (eval_var_eq_ok_iff.mp hEval).2
  | binary op left right =>
      rcases eval_binary_eq_ok_iff.mp hEval with
        ⟨a, b, -, -, hFinite, rfl⟩
      exact hFinite

/- Every part of what has a value has one. -/
theorem exists_eval_of_isPartOf
    {part : Expr Float}
    (hPart : part.IsPartOf e)
    (hEval : e.eval env = .ok x) :
    ∃ y, part.eval env = .ok y ∧ y.isFinite = true := by
  induction hPart generalizing x with
  | whole =>
      exact ⟨x, hEval, isFinite_of_eval hEval⟩
  | left _ ih =>
      rcases eval_binary_eq_ok_iff.mp hEval with
        ⟨a, -, hLeft, -⟩
      exact ih hLeft
  | right _ ih =>
      rcases eval_binary_eq_ok_iff.mp hEval with
        ⟨-, b, -, hRight, -⟩
      exact ih hRight

------------------------------------------------------------
-- The Zoom
------------------------------------------------------------

/-
  The zoom is not missed where it is bound or where no part
  refers to it.
-/
theorem failsAs_eval
    (hZoom :
      e.references .zoom = true → env.zoom.isSome = true) :
    Outcome.FailsAs (· ≠ .unboundZoom) (e.eval env) := by
  have hFinite (x : Float) :
      Outcome.FailsAs (· ≠ .unboundZoom) (finite env x) := by
    unfold finite
    by_cases hx : x.isFinite = true
    · rw [if_pos hx]
      exact Outcome.failsAs_ok x
    · rw [if_neg hx]
      exact Outcome.failsAs_error ExprFault.noConfusion
  induction e with
  | const c =>
      exact hFinite c
  | var v =>
      rw [eval]
      cases hLookup : env.lookup? v with
      | some x =>
          exact hFinite x
      | none =>
          -- only the zoom can be unbound
          cases v with
          | zoom =>
              have hBound := hZoom rfl
              rw [Env.lookup?] at hLookup
              rw [hLookup] at hBound
              cases hBound
          | _ =>
              cases hLookup
  | binary op left right ihLeft ihRight =>
      rw [eval]
      apply (ihLeft _).bind
      · intro a
        apply (ihRight _).bind
        · intro b
          exact hFinite (op.apply a b)
        · intro hOccurs
          exact hZoom (references_binary_iff.mpr
            (.inr hOccurs))
      · intro hOccurs
        exact hZoom (references_binary_iff.mpr
          (.inl hOccurs))

end Expr

end Slideshow

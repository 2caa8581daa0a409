import Mathlib.Data.List.Forall2

/-
  This file characterizes when steps that may fail succeed,
  and which of several failures is the one that shows.

  Key lemmas include:
    * `Outcome.bind_eq_ok_iff`
    * `Outcome.bind_eq_error_iff`
    * `Outcome.mapError_eq_ok_iff`
    * `Outcome.map_eq_ok_iff`
    * `Outcome.exists_eq_ok_of_isOk`
    * `Outcome.guard_eq_ok_iff`
    * `Outcome.mapM_eq_ok_iff`
    * `Outcome.exists_mapM_eq_ok_iff`
    * `Outcome.mapM_eq_error_iff`
    * `Outcome.FailsAs.bind`
    * `Outcome.FailsAs.guard`
-/

namespace Slideshow

namespace Outcome

variable {ε δ α β : Type}

/- Two steps succeed exactly if one after the other does. -/
theorem bind_eq_ok_iff
    {x : Except ε α}
    {f : α → Except ε β}
    {b : β} :
    (x >>= f) = .ok b ↔ ∃ a, x = .ok a ∧ f a = .ok b := by
  cases x with
  | error e =>
      simp [bind, Except.bind]
  | ok a =>
      simp [bind, Except.bind]

/- Of two steps the first failure is the one that shows. -/
theorem bind_eq_error_iff
    {x : Except ε α}
    {f : α → Except ε β}
    {e : ε} :
    (x >>= f) = .error e ↔
      x = .error e ∨ ∃ a, x = .ok a ∧ f a = .error e := by
  cases x with
  | error d =>
      simp [bind, Except.bind]
  | ok a =>
      simp [bind, Except.bind]

/- Another wording of the error leaves success as it is. -/
theorem mapError_eq_ok_iff
    {x : Except ε α}
    {f : ε → δ}
    {a : α} :
    x.mapError f = .ok a ↔ x = .ok a := by
  cases x with
  | error e =>
      show Except.error (f e) = .ok a ↔
        Except.error e = .ok a
      simp
  | ok b =>
      show (Except.ok b : Except δ α) = .ok a ↔
        (Except.ok b : Except ε α) = .ok a
      simp

/- Another wording of the error leaves failure as it is. -/
theorem mapError_eq_error_iff
    {x : Except ε α}
    {f : ε → δ}
    {e : δ} :
    x.mapError f = .error e ↔
      ∃ d, x = .error d ∧ e = f d := by
  cases x with
  | error d =>
      show (Except.error (f d) : Except δ α) = .error e ↔
        ∃ d', Except.error d = .error d' ∧ e = f d'
      simp [eq_comm]
  | ok a =>
      show (Except.ok a : Except δ α) = .error e ↔
        ∃ d, (Except.ok a : Except ε α) = .error d ∧ e = f d
      simp

/- A step with a changed result succeeds as before. -/
theorem map_eq_ok_iff
    {x : Except ε α}
    {g : α → β}
    {b : β} :
    x.map g = .ok b ↔ ∃ a, x = .ok a ∧ b = g a := by
  cases x with
  | error e =>
      simp [Except.map]
  | ok a =>
      simp [Except.map, eq_comm]

theorem map_eq_error_iff
    {x : Except ε α}
    {g : α → β}
    {e : ε} :
    x.map g = .error e ↔ x = .error e := by
  cases x with
  | error d =>
      simp [Except.map]
  | ok a =>
      simp [Except.map]

/- A step that succeeds has a result. -/
theorem exists_eq_ok_of_isOk
    {x : Except ε α}
    (hOk : x.isOk = true) :
    ∃ a, x = .ok a := by
  cases x with
  | error e =>
      cases hOk
  | ok a =>
      exact ⟨a, rfl⟩

theorem exists_eq_error_of_isOk
    {x : Except ε α}
    (hNot : x.isOk = false) :
    ∃ e, x = .error e := by
  cases x with
  | error e =>
      exact ⟨e, rfl⟩
  | ok a =>
      cases hNot

/- Steps behind a check succeed if the check does not fail. -/
theorem guard_eq_ok_iff
    {failed : Prop}
    [Decidable failed]
    {e : ε}
    {f : α → Except ε β}
    {x : Except ε β}
    {b : β} :
    (if failed then .error e >>= f else x) = .ok b ↔
      ¬ failed ∧ x = .ok b := by
  by_cases hFailed : failed
  · simp [hFailed, bind, Except.bind]
  · simp [hFailed]

/- A failed check decides, before the steps behind it. -/
theorem guard_eq_error_iff
    {failed : Prop}
    [Decidable failed]
    {d e : ε}
    {f : α → Except ε β}
    {x : Except ε β} :
    (if failed then .error d >>= f else x) = .error e ↔
      failed ∧ d = e ∨ ¬ failed ∧ x = .error e := by
  by_cases hFailed : failed
  · simp [hFailed, bind, Except.bind]
  · simp [hFailed]

------------------------------------------------------------
-- Kinds of Failures
------------------------------------------------------------

/- If a step fails, then with an error of a kind. -/
def FailsAs
    (kind : ε → Prop)
    (x : Except ε α) : Prop :=
  ∀ e, x = .error e → kind e

section FailsAs

variable {kind kind' : ε → Prop}
variable {x : Except ε α}

theorem failsAs_ok (a : α) :
    FailsAs kind (.ok a : Except ε α) := by
  intro e hError
  cases hError

theorem failsAs_error
    {e : ε}
    (hKind : kind e) :
    FailsAs kind (.error e : Except ε α) := by
  rintro d ⟨⟩
  exact hKind

theorem FailsAs.imp
    (hFails : FailsAs kind x)
    (hImp : ∀ e, kind e → kind' e) :
    FailsAs kind' x :=
  fun e hError => hImp e (hFails e hError)

/- Of two steps each has to fail as the kind says. -/
theorem FailsAs.bind
    {f : α → Except ε β}
    (hFirst : FailsAs kind x)
    (hNext : ∀ a, FailsAs kind (f a)) :
    FailsAs kind (x >>= f) := by
  intro e hError
  rcases bind_eq_error_iff.mp hError with
    hError | ⟨a, -, hError⟩
  · exact hFirst e hError
  · exact hNext a e hError

theorem FailsAs.map
    {g : α → β}
    (hFails : FailsAs kind x) :
    FailsAs kind (x.map g) :=
  fun e hError => hFails e (map_eq_error_iff.mp hError)

theorem failsAs_mapError
    {kind : δ → Prop}
    {g : ε → δ}
    (hKind : ∀ d, kind (g d)) :
    FailsAs kind (x.mapError g) := by
  intro e hError
  rcases mapError_eq_error_iff.mp hError with ⟨d, -, rfl⟩
  exact hKind d

/- A check fails with an error of the kind. -/
theorem FailsAs.guard
    {failed : Prop}
    [Decidable failed]
    {e : ε}
    {f : β → Except ε α}
    (hKind : kind e)
    (hNext : FailsAs kind x) :
    FailsAs kind
      (if failed then .error e >>= f else x) := by
  intro d hError
  rcases guard_eq_error_iff.mp hError with
    ⟨-, rfl⟩ | ⟨-, hError⟩
  · exact hKind
  · exact hNext d hError

end FailsAs

------------------------------------------------------------
-- Lists of Steps
------------------------------------------------------------

variable {f : α → Except ε β}
variable {xs : List α}

/- Steps for a list succeed if each of them does. -/
theorem mapM_eq_ok_iff
    {ys : List β} :
    xs.mapM f = .ok ys ↔
      List.Forall₂ (fun x y => f x = .ok y) xs ys := by
  induction xs generalizing ys with
  | nil =>
      rw [List.mapM_nil, List.forall₂_nil_left_iff]
      simp [pure, Except.pure, eq_comm]
  | cons x xs ih =>
      rw [List.mapM_cons, bind_eq_ok_iff,
        List.forall₂_cons_left_iff]
      simp only [bind_eq_ok_iff, ih]
      constructor
      · rintro ⟨y, hFirst, rest, hRest, hEq⟩
        cases hEq
        exact ⟨y, rest, hFirst, hRest, rfl⟩
      · rintro ⟨y, rest, hFirst, hRest, rfl⟩
        exact ⟨y, hFirst, rest, hRest, rfl⟩

/- Steps for a list can be done if each of them can. -/
theorem exists_mapM_eq_ok_iff :
    (∃ ys, xs.mapM f = .ok ys) ↔
      ∀ x ∈ xs, ∃ y, f x = .ok y := by
  simp only [mapM_eq_ok_iff]
  induction xs with
  | nil =>
      exact ⟨fun _ x hx => absurd hx List.not_mem_nil,
        fun _ => ⟨[], .nil⟩⟩
  | cons x xs ih =>
      rw [List.forall_mem_cons, ← ih]
      constructor
      · rintro ⟨ys, hAll⟩
        rcases List.forall₂_cons_left_iff.mp hAll with
          ⟨y, rest, hFirst, hRest, rfl⟩
        exact ⟨⟨y, hFirst⟩, rest, hRest⟩
      · rintro ⟨⟨y, hFirst⟩, rest, hRest⟩
        exact ⟨y :: rest, .cons hFirst hRest⟩

/- Steps for a list fail as the first of them that fails. -/
theorem mapM_eq_error_iff
    {e : ε} :
    xs.mapM f = .error e ↔
      ∃ before x after,
        xs = before ++ x :: after ∧
          (∀ y ∈ before, ∃ b, f y = .ok b) ∧
          f x = .error e := by
  induction xs with
  | nil =>
      rw [List.mapM_nil]
      simp [pure, Except.pure]
  | cons x xs ih =>
      rw [List.mapM_cons, bind_eq_error_iff]
      constructor
      · rintro (hFirst | ⟨b, hFirst, hRest⟩)
        · exact ⟨[], x, xs, rfl, by simp, hFirst⟩
        · rw [bind_eq_error_iff, ih] at hRest
          rcases hRest with
            ⟨before, y, after, rfl, hBefore, hError⟩ |
            ⟨bs, _, hPure⟩
          · refine ⟨x :: before, y, after, rfl, ?_, hError⟩
            intro z hz
            rcases List.mem_cons.mp hz with rfl | hz
            · exact ⟨b, hFirst⟩
            · exact hBefore z hz
          · cases hPure
      · rintro ⟨before, y, after, hEq, hBefore, hError⟩
        cases before with
        | nil =>
            cases hEq
            exact Or.inl hError
        | cons z before =>
            cases hEq
            rcases hBefore x List.mem_cons_self with
              ⟨b, hFirst⟩
            refine Or.inr ⟨b, hFirst, ?_⟩
            rw [bind_eq_error_iff, ih]
            refine Or.inl
              ⟨before, y, after, rfl, ?_, hError⟩
            intro z hz
            exact hBefore z (List.mem_cons_of_mem x hz)

end Outcome

end Slideshow

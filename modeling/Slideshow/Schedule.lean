import Slideshow.Transition.Policy

/-
  This file defines the schedule of the transitions between
  clips and the length of the whole film.  Both come from
  the declared durations alone, so they do not depend on how
  clips are rounded to frames.

  Times may be any kind of number.

  Key definitions include:
    * `Transition`
    * `Schedule.offsets`
    * `Schedule.transitions`
    * `Schedule.total`
-/

namespace Slideshow

/-
  The dissolve from the clip at `boundary` to the next one:
  its style, its length, and its start in the film.
-/
structure Transition (τ : Type) where
  boundary : Nat
  style : TransitionStyle
  duration : τ
  offset : τ
deriving Repr

namespace Schedule

variable {τ : Type}
variable [Add τ]

/- The sums of the first durations, from `start` on. -/
def offsetsFrom
    (start : τ) :
    List τ → List τ
  | [] => []
  | d :: ds => (start + d) :: offsetsFrom (start + d) ds

/- The end of each clip when clips follow one another. -/
def offsets
    [OfNat τ 0]
    (durations : List τ) : List τ :=
  offsetsFrom 0 durations

/- Place a transition at each offset, in order. -/
def place
    {σ : Type}
    [WordSource σ]
    (overlap : τ)
    (policy : TransitionPolicy)
    (boundary : Nat)
    (s : σ) :
    List τ →
      Except TransitionFault (List (Transition τ) × σ)
  | [] => .ok ([], s)
  | offset :: rest => do
      let (style, s) ← policy.pick s
      let (more, s) ←
        place overlap policy (boundary + 1) s rest
      return (⟨boundary, style, overlap, offset⟩ :: more, s)

/-
  One transition for each pair of neighbouring clips, at the
  end of the earlier one.
-/
def transitions
    [OfNat τ 0]
    {σ : Type}
    [WordSource σ]
    (durations : List τ)
    (overlap : τ)
    (policy : TransitionPolicy)
    (s : σ) :
    Except TransitionFault (List (Transition τ) × σ) :=
  place overlap policy 0 s
    ((offsets durations).take (durations.length - 1))

/-
  The length of the film: all durations, added from the
  left, and one overlap in which the last clip runs out.
-/
def total
    (durations : List τ)
    (overlap : τ) : τ :=
  match durations with
  | [] => overlap
  | d :: ds => ds.foldl (· + ·) d + overlap

end Schedule

end Slideshow

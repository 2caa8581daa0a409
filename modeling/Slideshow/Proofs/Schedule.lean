import Slideshow.Proofs.Outcome
import Slideshow.Schedule

/-
  This file proves that a schedule has one transition for
  each boundary between neighbouring clips, in order, and
  that offsets and the length of the film are sums of the
  same durations, added in the same order.

  Sums are folds from the left, which says how they are
  rounded.

  Main results include:
    * `Schedule.place_cons_eq_ok_iff`
    * `Schedule.picked_of_place`
    * `Schedule.boundaries_of_transitions`
    * `Schedule.getElem?_offsetsFrom`
    * `Schedule.transition_of_transitions`
    * `Schedule.last_of_transitions`
    * `Schedule.total_eq_foldl`
-/

namespace Slideshow

namespace Schedule

variable {τ σ : Type}
variable [WordSource σ]
variable {overlap : τ}
variable {policy : TransitionPolicy}
variable {s s' : σ}
variable {placed : List (Transition τ)}

/- Every clip has an end. -/
@[simp] theorem length_offsetsFrom
    [Add τ]
    (start : τ)
    (durations : List τ) :
    (offsetsFrom start durations).length =
      durations.length := by
  induction durations generalizing start with
  | nil =>
      rfl
  | cons d ds ih =>
      simp [offsetsFrom, ih]

/- All that placing the first of some transitions does. -/
theorem place_cons_eq_ok_iff
    {boundary : Nat}
    {offset : τ}
    {offsets : List τ} :
    place overlap policy boundary s (offset :: offsets) =
        .ok (placed, s') ↔
      ∃ style s₁ rest,
        policy.pick s = .ok (style, s₁) ∧
          place overlap policy (boundary + 1) s₁ offsets =
            .ok (rest, s') ∧
          placed =
            ⟨boundary, style, overlap, offset⟩ :: rest := by
  rw [place, Outcome.bind_eq_ok_iff]
  constructor
  · rintro ⟨⟨style, s₁⟩, hPick, hRest⟩
    rw [Outcome.bind_eq_ok_iff] at hRest
    rcases hRest with ⟨⟨rest, s₂⟩, hRest, hEq⟩
    cases hEq
    exact ⟨style, s₁, rest, hPick, hRest, rfl⟩
  · rintro ⟨style, s₁, rest, hPick, hRest, rfl⟩
    refine ⟨(style, s₁), hPick, ?_⟩
    rw [Outcome.bind_eq_ok_iff]
    exact ⟨(rest, s'), hRest, rfl⟩

/-
  Each transition is picked for the next boundary and put at
  the next offset.
-/
theorem picked_of_place
    {boundary k : Nat}
    {offsets : List τ}
    {t : Transition τ}
    (hPlace :
      place overlap policy boundary s offsets =
        .ok (placed, s'))
    (hGet : placed[k]? = some t) :
    t.boundary = boundary + k ∧ t.duration = overlap ∧
      offsets[k]? = some t.offset ∧
      ∃ s₁ s₂ : σ, policy.pick s₁ = .ok (t.style, s₂) := by
  induction offsets generalizing boundary k s placed with
  | nil =>
      cases hPlace
      cases hGet
  | cons offset offsets ih =>
      rcases place_cons_eq_ok_iff.mp hPlace with
        ⟨style, s₁, rest, hPick, hRest, rfl⟩
      cases k with
      | zero =>
          cases hGet
          exact ⟨rfl, rfl, rfl, s, s₁, hPick⟩
      | succ k =>
          rcases ih hRest hGet with
            ⟨hBoundary, hDuration, hOffset, hPick⟩
          refine ⟨?_, hDuration, hOffset, hPick⟩
          rw [hBoundary]
          omega

/- Boundaries are counted up from the first. -/
theorem boundaries_of_place
    {boundary : Nat}
    {offsets : List τ}
    (hPlace :
      place overlap policy boundary s offsets =
        .ok (placed, s')) :
    placed.map Transition.boundary =
      List.range' boundary offsets.length := by
  induction offsets generalizing boundary s placed with
  | nil =>
      cases hPlace
      rfl
  | cons offset offsets ih =>
      rcases place_cons_eq_ok_iff.mp hPlace with
        ⟨style, s₁, rest, _, hRest, rfl⟩
      rw [List.map_cons, ih hRest, List.length_cons,
        List.range'_succ]

/- There is one transition at each boundary, in order. -/
theorem boundaries_of_transitions
    [Add τ] [OfNat τ 0]
    {durations : List τ}
    (hPlaced :
      transitions durations overlap policy s =
        .ok (placed, s')) :
    placed.map Transition.boundary =
      List.range (durations.length - 1) := by
  rw [boundaries_of_place hPlaced, List.range_eq_range',
    offsets, List.length_take, length_offsetsFrom,
    Nat.min_eq_left (Nat.sub_le _ _)]

theorem length_of_transitions
    [Add τ] [OfNat τ 0]
    {durations : List τ}
    (hPlaced :
      transitions durations overlap policy s =
        .ok (placed, s')) :
    placed.length = durations.length - 1 := by
  have hBoundaries := boundaries_of_transitions hPlaced
  rw [← List.length_map, hBoundaries, List.length_range]

------------------------------------------------------------
-- Sums
------------------------------------------------------------

section Sums

variable [Add τ]
variable {durations : List τ}
variable {k : Nat}

/- An offset is the sum of the durations up to it. -/
theorem getElem?_offsetsFrom
    {start : τ}
    (hk : k < durations.length) :
    (offsetsFrom start durations)[k]? =
      some
        ((durations.take (k + 1)).foldl (· + ·) start) := by
  induction durations generalizing start k with
  | nil =>
      exact absurd hk (Nat.not_lt_zero k)
  | cons d ds ih =>
      cases k with
      | zero =>
          rfl
      | succ k =>
          rw [offsetsFrom, List.getElem?_cons_succ,
            ih (Nat.lt_of_succ_lt_succ hk),
            List.take_succ_cons, List.foldl_cons]

variable [OfNat τ 0]

/- The transition at a boundary and when it begins. -/
theorem transition_of_transitions
    (hPlaced :
      transitions durations overlap policy s =
        .ok (placed, s'))
    (hk : k + 1 < durations.length) :
    ∃ t,
      placed[k]? = some t ∧ t.boundary = k ∧
        t.duration = overlap ∧
        t.offset =
          (durations.take (k + 1)).foldl (· + ·) 0 := by
  have hBound : k < placed.length := by
    rw [length_of_transitions hPlaced]
    omega
  have hGet := List.getElem?_eq_getElem hBound
  rcases picked_of_place hPlaced hGet with
    ⟨hBoundary, hDuration, hOffset, _⟩
  rw [List.getElem?_take_of_lt (by omega), offsets,
    getElem?_offsetsFrom (by omega)] at hOffset
  exact ⟨placed[k], hGet, by omega, hDuration,
    (Option.some.inj hOffset).symm⟩

/-
  All durations together are the offset of the last
  transition and the last duration.
-/
theorem last_of_transitions
    (hPlaced :
      transitions durations overlap policy s =
        .ok (placed, s'))
    (hCount : 2 ≤ durations.length) :
    ∃ t d,
      placed.getLast? = some t ∧
        durations.getLast? = some d ∧
        durations.foldl (· + ·) 0 = t.offset + d := by
  have hNonempty : durations ≠ [] := by
    apply List.ne_nil_of_length_pos
    omega
  have hIndex :
      durations.length - 2 + 1 = durations.length - 1 := by
    omega
  rcases transition_of_transitions
      (k := durations.length - 2) hPlaced (by omega) with
    ⟨t, hGet, _, _, hOffset⟩
  refine ⟨t, durations.getLast hNonempty, ?_,
    List.getLast?_eq_some_getLast hNonempty, ?_⟩
  · rw [List.getLast?_eq_getElem?,
      length_of_transitions hPlaced]
    exact hGet
  · rw [hIndex] at hOffset
    calc durations.foldl (· + ·) 0
        = (durations.take (durations.length - 1) ++
            [durations.getLast hNonempty]).foldl
              (· + ·) 0 := by
          rw [List.take_append_getLast]
      _ = t.offset + durations.getLast hNonempty := by
          rw [List.foldl_concat, hOffset]

/-
  The length of a film is the sum of all durations, and one
  overlap, if nothing changes the first of them.
-/
theorem total_eq_foldl
    (hHead : ∀ d ∈ durations.head?, 0 + d = d)
    (hDurations : durations ≠ []) :
    total durations overlap =
      durations.foldl (· + ·) 0 + overlap := by
  cases durations with
  | nil =>
      exact absurd rfl hDurations
  | cons d ds =>
      rw [total, List.foldl_cons, hHead d rfl]

end Sums

end Schedule

end Slideshow

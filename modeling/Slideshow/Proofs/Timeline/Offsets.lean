import Slideshow.Proofs.Choice
import Slideshow.Proofs.Decimal.Loss
import Slideshow.Proofs.Graph.Assembly
import Slideshow.Proofs.Motion.Path
import Slideshow.Proofs.Playback.Dissolve

/-
  This file proves how the transitions of a timeline follow
  one another in time.

  An offset is a running sum of durations, and each of its
  steps is rounded.  From positive durations it never falls.
  It rises exactly if the duration that is added is not lost
  in the sum so far (`Binary.IsLostIn`), so that two
  transitions fall together behind a shot that is very short
  for the time at which it is shown.

  Main results include:
    * `Schedule.offset_succ_of_transitions`
    * `Schedule.foldl_pos`
    * `Schedule.offset_pos_of_transitions`
    * `Timeline.isFinite_of_build`
    * `Timeline.offset_rises_of_build`
-/

namespace Slideshow

------------------------------------------------------------
-- Running Sums
------------------------------------------------------------

namespace Schedule

variable {σ : Type}
variable [WordSource σ]
variable {policy : TransitionPolicy}
variable {s s' : σ}
variable {k : Nat}

/- Each offset adds one duration to the one before. -/
theorem offset_succ_of_transitions
    {τ : Type}
    [Add τ] [OfNat τ 0]
    {durations : List τ}
    {overlap d : τ}
    {placed : List (Transition τ)}
    {t u : Transition τ}
    (hPlaced :
      transitions durations overlap policy s =
        .ok (placed, s'))
    (hFirst : placed[k]? = some t)
    (hNext : placed[k + 1]? = some u)
    (hDuration : durations[k + 1]? = some d) :
    u.offset = t.offset + d := by
  have hBound : k + 1 < placed.length := by
    rw [List.getElem?_eq_some_iff] at hNext
    exact hNext.1
  rw [length_of_transitions hPlaced] at hBound
  rcases transition_of_transitions (k := k) hPlaced
      (by omega) with ⟨t', hFirst', _, _, hStart⟩
  rcases transition_of_transitions (k := k + 1) hPlaced
      (by omega) with ⟨u', hNext', _, _, hEnd⟩
  cases hFirst.symm.trans hFirst'
  cases hNext.symm.trans hNext'
  rw [hEnd, hStart, List.take_add_one, hDuration,
    Option.toList_some, List.foldl_append, List.foldl_cons,
    List.foldl_nil]

/- A running sum of positive doubles stays positive. -/
theorem foldl_pos
    {start : Float}
    {durations : List Float}
    (hStart : 0 < start)
    (hDurations :
      ∀ d ∈ durations, 0 < d ∧ d.isFinite = true) :
    0 < durations.foldl (· + ·) start := by
  induction durations generalizing start with
  | nil => exact hStart
  | cons d ds ih =>
      rcases List.forall_mem_cons.mp hDurations with
        ⟨⟨hPos, hFinite⟩, hRest⟩
      rcases Binary.exists_exactValue?_iff.mpr hFinite with
        ⟨w, hValue⟩
      have hPart :=
        (Binary.lt_iff Binary.exactValue?_zero hValue).mp hPos
      exact ih (Binary.add_pos_of_pos hStart hValue hPart)
        hRest

/- From positive durations all offsets are positive. -/
theorem offset_pos_of_transitions
    {durations : List Float}
    {overlap : Float}
    {placed : List (Transition Float)}
    {t : Transition Float}
    (hPlaced :
      transitions durations overlap policy s =
        .ok (placed, s'))
    (hDurations :
      ∀ d ∈ durations, 0 < d ∧ d.isFinite = true)
    (hGet : placed[k]? = some t) :
    0 < t.offset := by
  have hBound : k < placed.length := by
    rw [List.getElem?_eq_some_iff] at hGet
    exact hGet.1
  rw [length_of_transitions hPlaced] at hBound
  rcases transition_of_transitions (k := k) hPlaced
      (by omega) with ⟨t', hGet', _, _, hOffset⟩
  cases hGet.symm.trans hGet'
  cases durations with
  | nil => exact absurd hBound (Nat.not_lt_zero k)
  | cons d ds =>
      rcases List.forall_mem_cons.mp hDurations with
        ⟨⟨hPos, _⟩, hRest⟩
      rw [hOffset, List.take_succ_cons, List.foldl_cons,
        Binary.zero_add_of_pos hPos]
      apply foldl_pos hPos
      intro d' hMem
      exact hRest d' (List.mem_of_mem_take hMem)

end Schedule

------------------------------------------------------------
-- Timelines
------------------------------------------------------------

namespace Timeline

variable {σ : Type}
variable [WordSource σ]
variable {shots : List Shot}
variable {config : Config}
variable {timeline : Timeline}
variable {s s' : σ}

/- Only shots of finite length make a timeline. -/
theorem isFinite_of_build
    {shot : Shot}
    (hBuild : build shots config s = .ok (timeline, s'))
    (hShot : shot ∈ shots) :
    shot.baseDuration.isFinite = true := by
  rcases build_eq_ok_iff.mp hBuild with
    ⟨_, _, working, clips, s₁, _, _, hClips, _, rfl⟩
  rcases List.getElem?_of_mem hShot with ⟨position, hGet⟩
  have hBound : position < clips.length := by
    rw [length_of_clipsFrom hClips]
    exact (List.getElem?_eq_some_iff.mp hGet).1
  rcases clip_of_clipsFrom hClips
      (List.getElem?_eq_getElem hBound) with
    ⟨other, s₂, s₃, hOther, hClip⟩
  cases hGet.symm.trans hOther
  rcases Shot.clip_eq_ok_iff.mp hClip with
    ⟨_, _, _, hMotion, _⟩
  rcases MotionPath.plan_eq_ok_iff.mp hMotion with
    ⟨_, hSum, _⟩
  exact Binary.isFinite_of_isFinite_add hSum

/-
  Each transition comes one duration after the one before
  it, as far as that is not rounded away.  The transitions
  are never out of order, and two of them fall together
  exactly if the duration in between is lost in the offset
  of the first.  That does not happen below 2 ^ 53 times the
  duration.
-/
theorem offset_rises_of_build
    (hPositive : ∀ shot ∈ shots, 0 < shot.baseDuration)
    (hBuild : build shots config s = .ok (timeline, s')) :
    ∀ (k : Nat) (t u : Transition Float) (shot : Shot),
      timeline.transitions[k]? = some t →
        timeline.transitions[k + 1]? = some u →
          shots[k + 1]? = some shot →
            u.offset = t.offset + shot.baseDuration ∧
              t.offset ≤ u.offset ∧
              (t.offset < u.offset ↔
                ¬ Binary.IsLostIn shot.baseDuration
                  t.offset) ∧
              ∀ v w,
                Binary.exactValue? t.offset = some v →
                  Binary.exactValue? shot.baseDuration =
                    some w →
                    v < 2 ^ 53 * w →
                      t.offset < u.offset := by
  intro k t u shot hFirst hNext hShot
  have hDurations :
      ∀ d ∈ shots.map Shot.baseDuration,
        0 < d ∧ d.isFinite = true := by
    intro d hMem
    rcases List.mem_map.mp hMem with ⟨other, hOther, rfl⟩
    exact ⟨hPositive other hOther,
      isFinite_of_build hBuild hOther⟩
  have hDuration :
      (shots.map Shot.baseDuration)[k + 1]? =
        some shot.baseDuration := by
    rw [List.getElem?_map, hShot]
    rfl
  rcases hDurations _ (List.mem_of_getElem? hDuration) with
    ⟨hPart, hFinite⟩
  rcases Binary.exists_exactValue?_iff.mpr hFinite with
    ⟨w, hValue⟩
  rw [Binary.lt_iff Binary.exactValue?_zero hValue] at hPart
  rcases build_eq_ok_iff.mp hBuild with
    ⟨_, _, _, _, _, _, _, hClips, hPlaced, rfl⟩
  rw [baseDurations_of_clipsFrom hClips] at hPlaced
  have hPos :=
    Schedule.offset_pos_of_transitions hPlaced hDurations
      hFirst
  have hRises := Binary.lt_add_iff hPos hValue hPart
  rw [Schedule.offset_succ_of_transitions hPlaced hFirst
    hNext hDuration]
  refine ⟨rfl, Binary.le_add_of_pos hPos hValue hPart,
    hRises, ?_⟩
  intro v w' hOffset hValue' hLt
  cases hValue.symm.trans hValue'
  exact hRises.mpr
    (Binary.not_isLostIn_of_lt hPos hOffset hValue hPart hLt)

/- The offsets of what is built, decoded. -/
def offsetsOf
    (built : Except Error (Timeline × σ)) :
    Option (List Binary) :=
  match built with
  | .ok (timeline, _) =>
      some (timeline.transitions.map fun t =>
        Binary.ofFloat t.offset)
  | .error _ => none

/- The first transitions of a timeline with such offsets. -/
omit [WordSource σ] in
theorem exists_of_offsetsOf
    {built : Except Error (Timeline × σ)}
    {first second : Binary}
    {rest : List Binary}
    (hOffsets :
      offsetsOf built = some (first :: second :: rest)) :
    ∃ timeline s' t u,
      built = .ok (timeline, s') ∧
        timeline.transitions[0]? = some t ∧
        timeline.transitions[1]? = some u ∧
        Binary.ofFloat t.offset = first ∧
        Binary.ofFloat u.offset = second := by
  cases built with
  | error fault => cases hOffsets
  | ok result =>
      rcases result with ⟨timeline, s'⟩
      have hMap :
          timeline.transitions.map
              (fun t => Binary.ofFloat t.offset) =
            first :: second :: rest :=
        Option.some.inj hOffsets
      rcases List.map_eq_cons_iff.mp hMap with
        ⟨t, more, hFirst, hT, hMore⟩
      rcases List.map_eq_cons_iff.mp hMore with
        ⟨u, last, rfl, hU, _⟩
      refine ⟨timeline, s', t, u, rfl, ?_, ?_, hT, hU⟩
      · rw [hFirst]
        rfl
      · rw [hFirst]
        rfl

/- The transitions of four shots of one second each. -/
theorem offset_rises_of_build_quartet :
    (∀ shot ∈ Shot.couple ++ Shot.couple,
      0 < shot.baseDuration) ∧
      ∃ timeline s' t u,
        build (Shot.couple ++ Shot.couple) Config.coarse
            (WordScript.ofList [7, 11]) =
          .ok (timeline, s') ∧
        timeline.transitions[0]? = some t ∧
        timeline.transitions[1]? = some u ∧
        t.offset < u.offset := by
  have hPositive :
      ∀ shot ∈ Shot.couple ++ Shot.couple,
        0 < shot.baseDuration := by
    decide +kernel
  have hOffsets :
      offsetsOf
          (build (Shot.couple ++ Shot.couple) Config.coarse
            (WordScript.ofList [7, 11])) =
        some
          [.finite false (2 ^ 52) (-52),
            .finite false (2 ^ 52) (-51),
            .finite false (3 * 2 ^ 51) (-51)] := by
    decide +kernel
  have hDuration :
      Binary.ofFloat (TimeRange.duration ⟨1.0, 2.0⟩) =
        .finite false (2 ^ 52) (-52) := by
    decide +kernel
  rcases exists_of_offsetsOf hOffsets with
    ⟨timeline, s', t, u, hBuild, hT, hU, hFirst, _⟩
  refine ⟨hPositive, timeline, s', t, u, hBuild, hT, hU, ?_⟩
  rcases offset_rises_of_build hPositive hBuild 0 t u _ hT hU
      rfl with ⟨_, _, _, hBelow⟩
  apply hBelow (Binary.magnitude (2 ^ 52) (-52))
    (Binary.magnitude (2 ^ 52) (-52))
  · rw [Binary.exactValue?, hFirst]
    rfl
  · show Binary.exactValue? (TimeRange.duration ⟨1.0, 2.0⟩) = _
    rw [Binary.exactValue?, hDuration]
    rfl
  · have hPos :=
      Binary.magnitude_pos (-52) (Nat.two_pow_pos 52)
    linarith

end Timeline

/- A shot of almost no time between two longer ones. -/
def Shot.sliver : List Shot :=
  [⟨"01", "a.png", ⟨8, 8⟩, ⟨0.0, 1.0⟩, some .zoomIn⟩,
    ⟨"02", "b.png", ⟨8, 8⟩, ⟨0.0, 1e-17⟩, some .zoomIn⟩,
    ⟨"03", "c.png", ⟨8, 8⟩, ⟨0.0, 1.0⟩, some .zoomIn⟩]

namespace Timeline

/- The transitions around it come at the same time. -/
theorem offset_stays_of_build_sliver :
    (∀ shot ∈ Shot.sliver, 0 < shot.baseDuration) ∧
      ∃ timeline s' t u,
        build Shot.sliver Config.coarse
            (WordScript.ofList [7]) =
          .ok (timeline, s') ∧
        timeline.transitions[0]? = some t ∧
        timeline.transitions[1]? = some u ∧
        ¬ t.offset < u.offset := by
  have hPositive :
      ∀ shot ∈ Shot.sliver, 0 < shot.baseDuration := by
    decide +kernel
  have hOffsets :
      offsetsOf
          (build Shot.sliver Config.coarse
            (WordScript.ofList [7])) =
        some
          [.finite false (2 ^ 52) (-52),
            .finite false (2 ^ 52) (-52)] := by
    decide +kernel
  rcases exists_of_offsetsOf hOffsets with
    ⟨timeline, s', t, u, hBuild, hT, hU, hFirst, hSecond⟩
  refine ⟨hPositive, timeline, s', t, u, hBuild, hT, hU, ?_⟩
  have hValue (x : Float)
      (hFields :
        Binary.ofFloat x = .finite false (2 ^ 52) (-52)) :
      Binary.exactValue? x =
        some (Binary.magnitude (2 ^ 52) (-52)) := by
    rw [Binary.exactValue?, hFields]
    rfl
  rw [Binary.lt_iff (hValue _ hFirst) (hValue _ hSecond)]
  exact lt_irrefl _

end Timeline

end Slideshow

import Mathlib.Algebra.BigOperators.Group.List.Basic
import Mathlib.Tactic.Linarith
import Mathlib.Tactic.Ring
import Slideshow.Proofs.Playback.Reel

/-
  This file proves that under blur-dissolve the blurs of
  neighbouring clips and the transition between them happen
  at the same time, when times are exact.

  A layout is what a timeline says about times.  It depends
  on the durations of the shots alone and is made with any
  kind of number, so that it can be made with fractions.

  Three clocks have to agree: the offsets of the transitions
  count from the start of the film, the ramp at the tail of
  a clip from the end of its duration, and the ramp at the
  head of a clip from its own start.

  Key definitions include:
    * `Layout.make`
    * `Transition.IsBlurredBy`
    * `Layout.IsAligned`

  Main results include:
    * `Timeline.layout_of_build`
    * `BlurRamp.playedFrom_spread`
    * `Layout.isAligned_of_make`
    * `Layout.exists_isAligned`
-/

namespace Slideshow

------------------------------------------------------------
-- Layouts
------------------------------------------------------------

/- The blurs of clips and the transitions between them. -/
structure Layout (τ : Type) where
  blurs : List (ClipBlur τ)
  transitions : List (Transition τ)

namespace Layout

variable {τ : Type}

/- The reel of the transitions. -/
def reel (layout : Layout τ) : Reel τ :=
  .ofTransitions layout.transitions

variable [Add τ] [Mul τ] [Div τ]
variable [OfNat τ 0] [OfNat τ 1] [OfNat τ 2] [OfNat τ 3]

/- The blur of the clip at each position. -/
def blursOf
    (durations : List τ)
    (overlap : τ)
    (policy : TransitionPolicy)
    (levels : BlurLevels τ) : List (ClipBlur τ) :=
  durations.mapIdx fun i d =>
    if policy.usesBlur then
      .annotate i durations.length d overlap levels
    else .none

/- The layout of clips of given durations. -/
def make
    {σ : Type}
    [WordSource σ]
    (durations : List τ)
    (overlap : τ)
    (policy : TransitionPolicy)
    (levels : BlurLevels τ)
    (s : σ) : Except TransitionFault (Layout τ × σ) := do
  let (transitions, s) ←
    Schedule.transitions durations overlap policy s
  return (⟨blursOf durations overlap policy levels,
    transitions⟩, s)

end Layout

namespace Timeline

variable {σ : Type}
variable [WordSource σ]
variable {shots : List Shot}
variable {config : Config}
variable {working : FrameSize}
variable {index count : Nat}
variable {clips : List Clip}
variable {timeline : Timeline}
variable {s s' : σ}

/- What a timeline says about times. -/
def layout (timeline : Timeline) : Layout Float :=
  ⟨timeline.clips.map Clip.blur, timeline.transitions⟩

/- Clips last as long as their shots. -/
theorem baseDurations_of_clipsFrom
    (hClips :
      clipsFrom config working index count s shots =
        .ok (clips, s')) :
    clips.map Clip.baseDuration =
      shots.map Shot.baseDuration := by
  apply map_of_clipsFrom ?_ hClips
  intro shot clip position t t' hClip
  rcases Shot.clip_eq_ok_iff.mp hClip with
    ⟨_, _, _, _, _, rfl⟩
  rfl

/- Clips have the blurs of the durations of their shots. -/
theorem blurs_of_clipsFrom
    (hClips :
      clipsFrom config working 0 shots.length s shots =
        .ok (clips, s')) :
    clips.map Clip.blur =
      Layout.blursOf (shots.map Shot.baseDuration)
        config.overlap config.transitions config.blur := by
  apply List.ext_getElem?
  intro position
  rw [Layout.blursOf, List.getElem?_map,
    List.getElem?_mapIdx, List.getElem?_map,
    List.length_map]
  cases hGet : clips[position]? with
  | none =>
      have hLength := length_of_clipsFrom hClips
      rw [List.getElem?_eq_none_iff] at hGet
      rw [List.getElem?_eq_none (by omega)]
      rfl
  | some clip =>
      rcases clip_of_clipsFrom hClips hGet with
        ⟨shot, s₁, s₂, hShot, hClip⟩
      rcases Shot.clip_eq_ok_iff.mp hClip with
        ⟨_, _, _, _, _, rfl⟩
      rw [hShot, Nat.zero_add]
      rfl

/-
  The timeline that is built of shots has the layout of
  their durations.
-/
theorem layout_of_build
    (hBuild : build shots config s = .ok (timeline, s')) :
    ∃ s₁ : σ,
      Layout.make (shots.map Shot.baseDuration)
          config.overlap config.transitions config.blur
          s₁ = .ok (timeline.layout, s') := by
  rcases build_eq_ok_iff.mp hBuild with
    ⟨_, _, working, clips, s₁, transitions, _, hClips,
      hPlaced, rfl⟩
  refine ⟨s₁, ?_⟩
  rw [baseDurations_of_clipsFrom hClips] at hPlaced
  rw [Layout.make, hPlaced, layout,
    blurs_of_clipsFrom hClips]
  rfl

end Timeline

------------------------------------------------------------
-- Offsets
------------------------------------------------------------

namespace Schedule

/- In exact time an offset is a sum of durations. -/
theorem exactTransition_of_transitions
    {σ : Type}
    [WordSource σ]
    {durations : List ℚ}
    {overlap : ℚ}
    {policy : TransitionPolicy}
    {s s' : σ}
    {placed : List (Transition ℚ)}
    {k : Nat}
    (hPlaced :
      transitions durations overlap policy s =
        .ok (placed, s'))
    (hk : k + 1 < durations.length) :
    ∃ t,
      placed[k]? = some t ∧ t.boundary = k ∧
        t.duration = overlap ∧
        t.offset = (durations.take (k + 1)).sum := by
  rw [List.sum_eq_foldl]
  exact transition_of_transitions hPlaced hk

/- Blur-dissolves are always scheduled, without drawing. -/
theorem place_blurDissolve
    {τ σ : Type}
    [WordSource σ]
    (overlap : τ)
    (boundary : Nat)
    (s : σ)
    (offsets : List τ) :
    ∃ placed,
      place overlap .blurDissolve boundary s offsets =
        .ok (placed, s) := by
  induction offsets generalizing boundary with
  | nil =>
      exact ⟨[], rfl⟩
  | cons offset offsets ih =>
      rcases ih (boundary + 1) with ⟨rest, hRest⟩
      exact ⟨_, place_cons_eq_ok_iff.mpr
        ⟨.fade, s, rest, rfl, hRest, rfl⟩⟩

end Schedule

------------------------------------------------------------
-- Ramps in the Film
------------------------------------------------------------

/- A window of a clip that begins at a time. -/
def BlurWindow.shift
    (time : ℚ)
    (window : BlurWindow ℚ) : BlurWindow ℚ :=
  ⟨time + window.start, time + window.stop, window.radius⟩

namespace BlurRamp

/- The windows of a clip that begins at a time. -/
def playedFrom
    (time : ℚ)
    (ramp : BlurRamp ℚ) : List (BlurWindow ℚ) :=
  ramp.windows.map (.shift time)

/- A ramp divides one overlap into three equal steps. -/
theorem playedFrom_spread
    (side : RampSide)
    (time start overlap : ℚ)
    (radius₁ radius₂ radius₃ : ℚ) :
    (spread side start overlap radius₁ radius₂
        radius₃).playedFrom time =
      [⟨time + start, time + start + overlap / 3, radius₁⟩,
        ⟨time + start + overlap / 3,
          time + start + overlap / 3 * 2, radius₂⟩,
        ⟨time + start + overlap / 3 * 2,
          time + start + overlap, radius₃⟩] := by
  simp only [playedFrom, windows, spread, List.map_cons,
    List.map_nil, BlurWindow.shift]
  ring_nf

end BlurRamp

namespace ClipBlur

variable {position count : Nat}
variable {baseDuration overlap : ℚ}
variable {levels : BlurLevels ℚ}

theorem tail_annotate
    (hNext : position + 1 < count) :
    (annotate position count baseDuration overlap
        levels).tail =
      some
        (.outgoingTail baseDuration overlap levels) :=
  if_pos hNext

theorem head_annotate
    (hBefore : 0 < position) :
    (annotate position count baseDuration overlap
        levels).head =
      some (.incomingHead overlap levels) :=
  if_pos hBefore

end ClipBlur

/-
  The windows at the tail of one clip and at the head of the
  next blur a transition: they are the same three steps, one
  behind the other, from its start to its end.  One clip is
  blurred more and more and the other less and less.
-/
def Transition.IsBlurredBy
    (t : Transition ℚ)
    (levels : BlurLevels ℚ)
    (tail head : List (BlurWindow ℚ)) : Prop :=
  ∃ p q,
    t.offset < p ∧ p < q ∧ q < t.offset + t.duration ∧
      tail =
        [⟨t.offset, p, levels.low⟩,
          ⟨p, q, levels.mid⟩,
          ⟨q, t.offset + t.duration, levels.high⟩] ∧
      head =
        [⟨t.offset, p, levels.high⟩,
          ⟨p, q, levels.mid⟩,
          ⟨q, t.offset + t.duration, levels.low⟩]

------------------------------------------------------------
-- Alignment
------------------------------------------------------------

/-
  A clip begins when those before it have lasted for their
  durations, and the ramps at each boundary blur the
  transition there.
-/
structure Layout.IsAligned
    (layout : Layout ℚ)
    (durations : List ℚ)
    (overlap : ℚ)
    (levels : BlurLevels ℚ) : Prop where
  length_blurs : layout.blurs.length = durations.length
  length_transitions :
    layout.transitions.length + 1 = durations.length
  start?_reel :
    ∀ j, j < durations.length →
      layout.reel.start? j = some (durations.take j).sum
  isBlurredBy :
    ∀ k, k + 1 < durations.length →
      ∃ t outgoing incoming tail head,
        layout.transitions[k]? = some t ∧
          t.boundary = k ∧ t.duration = overlap ∧
          layout.blurs[k]? = some outgoing ∧
          outgoing.tail = some tail ∧
          layout.blurs[k + 1]? = some incoming ∧
          incoming.head = some head ∧
          t.IsBlurredBy levels
            (tail.playedFrom (durations.take k).sum)
            (head.playedFrom (durations.take (k + 1)).sum)

namespace Layout

variable {σ : Type}
variable [WordSource σ]
variable {durations : List ℚ}
variable {overlap : ℚ}
variable {levels : BlurLevels ℚ}
variable {s s' : σ}
variable {layout : Layout ℚ}

/- The blur of a clip under blur-dissolve. -/
theorem getElem?_blursOf
    {k : Nat}
    {d : ℚ}
    (hGet : durations[k]? = some d) :
    (blursOf durations overlap .blurDissolve levels)[k]? =
      some
        (.annotate k durations.length d overlap levels) := by
  rw [blursOf, List.getElem?_mapIdx, hGet]
  rfl

/-
  The ramps at both sides of a transition blur it, wherever
  the outgoing clip begins.
-/
theorem isBlurredBy_ramps
    {t : Transition ℚ}
    {time d : ℚ}
    (hOverlap : 0 < t.duration)
    (hOffset : t.offset = time + d) :
    t.IsBlurredBy levels
      ((BlurRamp.outgoingTail d t.duration
        levels).playedFrom time)
      ((BlurRamp.incomingHead t.duration
        levels).playedFrom t.offset) := by
  refine
    ⟨t.offset + t.duration / 3,
      t.offset + t.duration / 3 * 2, by linarith,
      by linarith, by linarith, ?_, ?_⟩
  · rw [BlurRamp.outgoingTail, BlurRamp.playedFrom_spread,
      hOffset]
  · rw [BlurRamp.incomingHead, BlurRamp.playedFrom_spread,
      add_zero]

/- A layout under blur-dissolve is aligned. -/
theorem isAligned_of_make
    (hDurations : durations ≠ [])
    (hOverlap : 0 < overlap)
    (hMake :
      make durations overlap .blurDissolve levels s =
        .ok (layout, s')) :
    layout.IsAligned durations overlap levels := by
  rw [make, Outcome.bind_eq_ok_iff] at hMake
  rcases hMake with ⟨⟨transitions, s₁⟩, hPlaced, hEq⟩
  cases hEq
  refine ⟨List.length_mapIdx, ?_, ?_, ?_⟩
  · have hPositive := List.length_pos_iff.mpr hDurations
    show transitions.length + 1 = durations.length
    rw [Schedule.length_of_transitions hPlaced]
    omega
  · intro j hj
    cases j with
    | zero =>
        exact Reel.start?_ofTransitions_zero
    | succ k =>
        rcases
          Schedule.exactTransition_of_transitions hPlaced
            hj with
          ⟨t, hGet, _, _, hOffset⟩
        rw [reel, Reel.start?_ofTransitions_succ hGet,
          add_zero, hOffset]
  · intro k hk
    rcases
      Schedule.exactTransition_of_transitions hPlaced hk with
      ⟨t, hGet, hBoundary, rfl, hOffset⟩
    have hOutgoing :=
      List.getElem?_eq_getElem (Nat.lt_of_succ_lt hk)
    have hIncoming := List.getElem?_eq_getElem hk
    have hSum :
        t.offset =
          (durations.take k).sum + durations[k] := by
      rw [hOffset, List.take_add_one, hOutgoing,
        Option.toList_some, List.sum_append,
        List.sum_singleton]
    refine
      ⟨t, _, _, _, _, hGet, hBoundary, rfl,
        getElem?_blursOf hOutgoing,
        ClipBlur.tail_annotate hk,
        getElem?_blursOf hIncoming,
        ClipBlur.head_annotate (Nat.succ_pos k), ?_⟩
    rw [← hOffset]
    exact isBlurredBy_ramps hOverlap hSum

/-
  Clips of any exact durations are laid out for
  blur-dissolve without drawing a word, and the layout is
  aligned.  The timelines of shots are laid out by the same
  steps, and their graphs make the reels of their layouts.
-/
theorem exists_isAligned :
    (∀ (σ : Type) [WordSource σ]
      (durations : List ℚ)
      (overlap : ℚ)
      (levels : BlurLevels ℚ)
      (s : σ),
      durations ≠ [] → 0 < overlap →
        ∃ layout,
          make durations overlap .blurDissolve levels s =
              .ok (layout, s) ∧
            layout.IsAligned durations overlap levels) ∧
      ∀ (σ : Type) [WordSource σ]
        (shots : List Shot)
        (config : Config)
        (s s' : σ)
        (timeline : Timeline),
        Timeline.build shots config s =
            .ok (timeline, s') →
          (∃ s₁ : σ,
            make (shots.map Shot.baseDuration)
                config.overlap config.transitions
                config.blur s₁ =
              .ok (timeline.layout, s')) ∧
            ∃ graph whole used,
              timeline.assemble config = .ok graph ∧
                graph.Unfolds [.label graph.output] [whole]
                  used ∧
                whole.reel? = some timeline.layout.reel := by
  refine ⟨?_, ?_⟩
  · intro σ _ durations overlap levels s hDurations hOverlap
    rcases Schedule.place_blurDissolve overlap 0 s
        ((Schedule.offsets durations).take
          (durations.length - 1)) with
      ⟨transitions, hPlaced⟩
    have hMake :
        make durations overlap .blurDissolve levels s =
          .ok
            (⟨blursOf durations overlap .blurDissolve
              levels, transitions⟩, s) := by
      rw [make, Schedule.transitions, hPlaced]
      rfl
    exact ⟨_, hMake,
      isAligned_of_make hDurations hOverlap hMake⟩
  · intro σ _ shots config s s' timeline hBuild
    exact ⟨Timeline.layout_of_build hBuild,
      Timeline.exists_reel_of_build hBuild⟩

/- Three exact durations, and the timeline of two shots. -/
theorem exists_isAligned_trio :
    (∃ layout,
      make [4, 3, 5] 1 .blurDissolve ⟨2, 5, 10⟩
            (WordScript.ofList [7]) =
          .ok (layout, WordScript.ofList [7]) ∧
        layout.IsAligned [4, 3, 5] 1 ⟨2, 5, 10⟩) ∧
      ∃ timeline s',
        Timeline.build Shot.couple Config.coarse
            (WordScript.ofList [7]) = .ok (timeline, s') ∧
          ∃ graph whole used,
            timeline.assemble Config.coarse = .ok graph ∧
              graph.Unfolds [.label graph.output] [whole]
                used ∧
              whole.reel? = some timeline.layout.reel := by
  have hExists :
      ∃ timeline s',
        Timeline.build Shot.couple Config.coarse
          (WordScript.ofList [7]) = .ok (timeline, s') :=
    ⟨_, _, rfl⟩
  rcases hExists with ⟨timeline, s', hBuild⟩
  refine ⟨?_, timeline, s', hBuild, ?_⟩
  · exact exists_isAligned.1 _ _ _ _ _
      (List.cons_ne_nil _ _) one_pos
  · exact (exists_isAligned.2 _ _ _ _ _ _ hBuild).2

end Layout

end Slideshow

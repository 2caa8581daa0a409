import Slideshow.Proofs.Graph.Assembly
import Slideshow.Proofs.Motion.Path

/-
  This file proves how far random words reach into a
  timeline.

  Two runs over the same shots draw the same moves if they
  begin at the same source and choose from the same moves,
  since each shot takes the same words in both
  (`Timeline.effects_of_clipsFrom`) and all moves are drawn
  before the first style.

  A run in which nothing is drawn is unused
  (`WordSource.IsUnused`): one outcome stands for all
  sources, and the source is left as it was.  Runs of unused
  steps are unused, so it is enough to look at the two steps
  that could draw.

  Key definitions include:
    * `Timeline.effects`
    * `WordSource.IsUnused`

  Main results include:
    * `Timeline.effects_of_clipsFrom`
    * `WordSource.IsUnused.bind`
    * `Timeline.build_isUnused`
    * `Timeline.effects_eq_and_build_isUnused`
-/

namespace Slideshow

------------------------------------------------------------
-- Moves
------------------------------------------------------------

section Moves

variable {σ : Type}
variable [WordSource σ]
variable {config config' : Config}
variable {working working' : FrameSize}
variable {index index' count count' : Nat}
variable {s s₁ s₂ : σ}

theorem Shot.chooseEffect_congr
    (shot : Shot)
    (s : σ)
    (hEffects : config.effects = config'.effects) :
    shot.chooseEffect config s =
      shot.chooseEffect config' s := by
  unfold chooseEffect
  rw [hEffects]

/- The move of a clip is the one that was chosen. -/
theorem Shot.chooseEffect_of_clip
    {shot : Shot}
    {clip : Clip}
    (hClip :
      shot.clip config working index count s =
        .ok (clip, s₁)) :
    shot.chooseEffect config s =
      .ok (clip.motion.effect, s₁) := by
  rcases Shot.clip_eq_ok_iff.mp hClip with
    ⟨effect, motion, hEffect, hMotion, _, rfl⟩
  rcases MotionPath.plan_eq_ok_iff.mp hMotion with
    ⟨_, _, _, _, rfl⟩
  exact hEffect

namespace Timeline

/- The moves of a timeline, in order. -/
def effects (timeline : Timeline) : List MotionEffect :=
  timeline.clips.map fun clip => clip.motion.effect

/-
  Two runs from the same source draw the same moves and the
  same number of words, if they choose from the same moves.
-/
theorem effects_of_clipsFrom
    {shots : List Shot}
    {clips clips' : List Clip}
    (hEffects : config.effects = config'.effects)
    (hClips :
      clipsFrom config working index count s shots =
        .ok (clips, s₁))
    (hClips' :
      clipsFrom config' working' index' count' s shots =
        .ok (clips', s₂)) :
    clips.map (fun clip => clip.motion.effect) =
        clips'.map (fun clip => clip.motion.effect) ∧
      s₁ = s₂ := by
  induction shots generalizing index index' s clips
    clips' with
  | nil =>
      cases hClips
      cases hClips'
      exact ⟨rfl, rfl⟩
  | cons shot shots ih =>
      rcases clipsFrom_cons_eq_ok_iff.mp hClips with
        ⟨first, t, rest, hFirst, hRest, rfl⟩
      rcases clipsFrom_cons_eq_ok_iff.mp hClips' with
        ⟨first', t', rest', hFirst', hRest', rfl⟩
      have hDrawn := Shot.chooseEffect_of_clip hFirst
      rw [Shot.chooseEffect_congr shot s hEffects,
        Shot.chooseEffect_of_clip hFirst'] at hDrawn
      rcases Prod.mk.inj (Except.ok.inj hDrawn) with
        ⟨hMove, rfl⟩
      rcases ih hRest hRest' with ⟨hMoves, hLeft⟩
      rw [List.map_cons, List.map_cons, hMove, hMoves]
      exact ⟨rfl, hLeft⟩

end Timeline

end Moves

------------------------------------------------------------
-- Runs without Draws
------------------------------------------------------------

namespace WordSource

variable {ε δ α β : Type}

/-
  A run that draws no words: there is one outcome for all
  sources, of whatever kind, and the source stays as it is.
-/
def IsUnused
    (run :
      (σ : Type) → [WordSource σ] → σ →
        Except ε (α × σ)) : Prop :=
  ∃ outcome : Except ε α,
    ∀ (σ : Type) [WordSource σ] (s : σ),
      run σ s = outcome.map fun a => (a, s)

variable
  {run :
    (σ : Type) → [WordSource σ] → σ → Except ε (α × σ)}

theorem isUnused_ok (a : α) :
    IsUnused fun _ _ s => (.ok (a, s) : Except ε _) :=
  ⟨.ok a, fun _ _ _ => rfl⟩

theorem isUnused_error (e : ε) :
    IsUnused fun σ _ _ =>
      (.error e : Except ε (α × σ)) :=
  ⟨.error e, fun _ _ _ => rfl⟩

/- Two runs draw nothing if neither of them does. -/
theorem IsUnused.bind
    {next :
      (σ : Type) → [WordSource σ] → α × σ →
        Except ε (β × σ)}
    (hRun : IsUnused run)
    (hNext : ∀ a, IsUnused fun σ _ s => next σ (a, s)) :
    IsUnused fun σ _ s => run σ s >>= next σ := by
  rcases hRun with ⟨outcome, hRun⟩
  cases outcome with
  | error e =>
      refine ⟨.error e, ?_⟩
      intro σ _ s
      simp only [hRun]
      rfl
  | ok a =>
      rcases hNext a with ⟨result, hNext⟩
      refine ⟨result, ?_⟩
      intro σ _ s
      simp only [hRun, ← hNext]
      rfl

/- A step that has no source draws nothing. -/
theorem isUnused_step_bind
    {x : Except ε β}
    {next :
      β → (σ : Type) → [WordSource σ] → σ →
        Except ε (α × σ)}
    (hNext : ∀ b, IsUnused (next b)) :
    IsUnused fun σ _ s => x >>= fun b => next b σ s := by
  cases x with
  | error e => exact isUnused_error e
  | ok b => exact hNext b

theorem IsUnused.mapError
    (hRun : IsUnused run)
    (f : ε → δ) :
    IsUnused fun σ _ s => (run σ s).mapError f := by
  rcases hRun with ⟨outcome, hRun⟩
  refine ⟨outcome.mapError f, ?_⟩
  intro σ _ s
  simp only [hRun]
  cases outcome <;> rfl

end WordSource

open WordSource

theorem Shot.chooseEffect_isUnused
    {shot : Shot}
    (hNamed : shot.motion.isSome = true)
    (config : Config) :
    IsUnused fun _ _ s => shot.chooseEffect config s := by
  rcases Option.isSome_iff_exists.mp hNamed with
    ⟨effect, hMotion⟩
  unfold chooseEffect
  rw [hMotion]
  exact isUnused_ok effect

/- A shot that names its move draws nothing at all. -/
theorem Shot.clip_isUnused
    {shot : Shot}
    (hNamed : shot.motion.isSome = true)
    (config : Config)
    (working : FrameSize)
    (index count : Nat) :
    IsUnused fun _ _ s =>
      shot.clip config working index count s := by
  unfold Shot.clip
  apply IsUnused.bind
    ((Shot.chooseEffect_isUnused hNamed config).mapError
      Error.validation)
  intro effect
  apply isUnused_step_bind
  intro motion
  apply isUnused_step_bind
  intro _
  exact isUnused_ok _

/- Nor for the clips of shots that all name their moves. -/
theorem Timeline.clipsFrom_isUnused
    {shots : List Shot}
    (hNamed : ∀ shot ∈ shots, shot.motion.isSome = true)
    (config : Config)
    (working : FrameSize)
    (index count : Nat) :
    IsUnused fun _ _ s =>
      clipsFrom config working index count s shots := by
  induction shots generalizing index with
  | nil => exact isUnused_ok []
  | cons shot shots ih =>
      rw [List.forall_mem_cons] at hNamed
      unfold clipsFrom
      apply IsUnused.bind
        (Shot.clip_isUnused hNamed.1 config working index
          count)
      intro first
      apply IsUnused.bind (ih hNamed.2 (index + 1))
      intro more
      exact isUnused_ok (first :: more)

/- The blur-dissolve draws no styles. -/
theorem Schedule.place_isUnused
    {τ : Type}
    (overlap : τ)
    (boundary : Nat)
    (offsets : List τ) :
    IsUnused fun _ _ s =>
      place overlap .blurDissolve boundary s offsets := by
  induction offsets generalizing boundary with
  | nil => exact isUnused_ok []
  | cons offset offsets ih =>
      unfold place
      apply IsUnused.bind (isUnused_ok TransitionStyle.fade)
      intro style
      apply IsUnused.bind (ih (boundary + 1))
      intro more
      exact isUnused_ok (_ :: more)

namespace Timeline

/-
  Nothing is drawn for a timeline under the blur-dissolve if
  all shots name their moves.
-/
theorem build_isUnused
    {shots : List Shot}
    {config : Config}
    (hPolicy : config.transitions = .blurDissolve)
    (hNamed : ∀ shot ∈ shots, shot.motion.isSome = true) :
    IsUnused fun _ _ s => build shots config s := by
  unfold build
  rw [hPolicy]
  cases shots with
  | nil =>
      exact isUnused_error (Error.validation .noShots)
  | cons shot shots =>
      apply isUnused_step_bind (x := config.validate)
      intro _
      apply isUnused_step_bind
      intro working
      apply IsUnused.bind
        (clipsFrom_isUnused hNamed config working 0
          (shot :: shots).length)
      intro clips
      apply IsUnused.bind
        ((Schedule.place_isUnused config.overlap 0
          _).mapError Error.ofTransition)
      intro transitions
      exact isUnused_ok _

/-
  Two timelines of the same shots have the same moves if
  they are drawn from the same source and the settings have
  the same moves to choose from, whatever else they say.  If
  all shots name their moves and the policy is the
  blur-dissolve, the source does not matter at all, and is
  left as it was.
-/
theorem effects_eq_and_build_isUnused
    (shots : List Shot) :
    (∀ (σ : Type) [WordSource σ]
      (config config' : Config)
      (s s₁ s₂ : σ)
      (timeline timeline' : Timeline),
      config.effects = config'.effects →
        build shots config s = .ok (timeline, s₁) →
          build shots config' s = .ok (timeline', s₂) →
            timeline.effects = timeline'.effects) ∧
      ∀ config : Config,
        config.transitions = .blurDissolve →
          (∀ shot ∈ shots, shot.motion.isSome = true) →
            IsUnused fun _ _ s => build shots config s := by
  refine ⟨?_, ?_⟩
  · intro σ _ config config' s s₁ s₂ timeline timeline'
      hEffects hBuild hBuild'
    rcases build_eq_ok_iff.mp hBuild with
      ⟨_, _, _, clips, _, _, _, hClips, _, rfl⟩
    rcases build_eq_ok_iff.mp hBuild' with
      ⟨_, _, _, clips', _, _, _, hClips', _, rfl⟩
    exact (effects_of_clipsFrom hEffects hClips hClips').1
  · intro config hPolicy hNamed
    exact build_isUnused hPolicy hNamed

end Timeline

/- Other settings with the same moves to choose from. -/
def Config.scattered : Config :=
  { Config.coarse with
    rate := ⟨2, 1⟩
    overlap := 2.0
    zoom := ⟨1.0, 1.5⟩
    transitions := .random [.wipeLeft, .slideRight] }

namespace Timeline

/-
  Two shots, of which the second takes a drawn move, under
  two policies; and the first of them alone, from any source.
-/
theorem effects_eq_and_build_isUnused_couple :
    (∃ timeline timeline' s₁ s₂,
      build Shot.couple Config.coarse
          (WordScript.ofList [7, 11]) =
        .ok (timeline, s₁) ∧
      build Shot.couple Config.scattered
          (WordScript.ofList [7, 11]) =
        .ok (timeline', s₂) ∧
      timeline.effects = timeline'.effects) ∧
    IsUnused fun _ _ s =>
      build (Shot.couple.take 1) Config.coarse s := by
  have hOk :
      (build Shot.couple Config.coarse
          (WordScript.ofList [7, 11])).isOk = true ∧
        (build Shot.couple Config.scattered
          (WordScript.ofList [7, 11])).isOk = true := by
    decide +kernel
  rcases Outcome.exists_eq_ok_of_isOk hOk.1 with
    ⟨⟨timeline, s₁⟩, hBuild⟩
  rcases Outcome.exists_eq_ok_of_isOk hOk.2 with
    ⟨⟨timeline', s₂⟩, hBuild'⟩
  refine ⟨⟨timeline, timeline', s₁, s₂, hBuild, hBuild',
    ?_⟩, ?_⟩
  · exact (effects_eq_and_build_isUnused Shot.couple).1
      WordScript Config.coarse Config.scattered _ s₁ s₂
      timeline timeline' rfl hBuild hBuild'
  · exact (effects_eq_and_build_isUnused
      (Shot.couple.take 1)).2 Config.coarse rfl (by decide)

end Timeline

end Slideshow

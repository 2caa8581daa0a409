import Slideshow.Proofs.Schedule
import Slideshow.Timeline

/-
  This file proves what a timeline is made of when it is
  built from shots: one clip for each shot, and one
  transition for each boundary between them.

  Main results include:
    * `Shot.clip_eq_ok_iff`
    * `Timeline.clipsFrom_cons_eq_ok_iff`
    * `Timeline.clip_of_clipsFrom`
    * `Timeline.map_of_clipsFrom`
    * `Timeline.build_eq_ok_iff`
-/

namespace Slideshow

variable {σ : Type}
variable [WordSource σ]
variable {config : Config}
variable {working : FrameSize}
variable {index count : Nat}
variable {s s' : σ}

------------------------------------------------------------
-- Clips
------------------------------------------------------------

/- All that making one clip does. -/
theorem Shot.clip_eq_ok_iff
    {shot : Shot}
    {clip : Clip} :
    shot.clip config working index count s =
        .ok (clip, s') ↔
      ∃ effect motion,
        shot.chooseEffect config s = .ok (effect, s') ∧
          MotionPath.plan effect
              (shot.baseDuration + config.overlap)
              config.rate config.zoom = .ok motion ∧
          motion.checkBounds working = .ok () ∧
          clip =
            ⟨index, shot.id, shot.image, shot.baseDuration,
              shot.baseDuration + config.overlap, motion,
              shot.blur config index count⟩ := by
  unfold Shot.clip
  simp only [Outcome.bind_eq_ok_iff,
    Outcome.mapError_eq_ok_iff]
  constructor
  · rintro ⟨⟨effect, s₁⟩, hEffect, motion, hMotion, ⟨⟩,
      hBounds, hEq⟩
    cases hEq
    exact ⟨effect, motion, hEffect, hMotion, hBounds, rfl⟩
  · rintro ⟨effect, motion, hEffect, hMotion, hBounds, rfl⟩
    exact ⟨(effect, s'), hEffect, motion, hMotion, (),
      hBounds, rfl⟩

namespace Timeline

variable {shot : Shot}
variable {shots : List Shot}
variable {clips : List Clip}

/- All that making the first of some clips does. -/
theorem clipsFrom_cons_eq_ok_iff :
    clipsFrom config working index count s
        (shot :: shots) = .ok (clips, s') ↔
      ∃ first s₁ rest,
        shot.clip config working index count s =
            .ok (first, s₁) ∧
          clipsFrom config working (index + 1) count s₁
              shots = .ok (rest, s') ∧
          clips = first :: rest := by
  rw [clipsFrom, Outcome.bind_eq_ok_iff]
  constructor
  · rintro ⟨⟨first, s₁⟩, hFirst, hRest⟩
    rw [Outcome.bind_eq_ok_iff] at hRest
    rcases hRest with ⟨⟨rest, s₂⟩, hRest, hEq⟩
    cases hEq
    exact ⟨first, s₁, rest, hFirst, hRest, rfl⟩
  · rintro ⟨first, s₁, rest, hFirst, hRest, rfl⟩
    refine ⟨(first, s₁), hFirst, ?_⟩
    rw [Outcome.bind_eq_ok_iff]
    exact ⟨(rest, s'), hRest, rfl⟩

/- There is one clip for each shot. -/
theorem length_of_clipsFrom
    (hClips :
      clipsFrom config working index count s shots =
        .ok (clips, s')) :
    clips.length = shots.length := by
  induction shots generalizing index s clips with
  | nil =>
      cases hClips
      rfl
  | cons shot shots ih =>
      rcases clipsFrom_cons_eq_ok_iff.mp hClips with
        ⟨first, s₁, rest, _, hRest, rfl⟩
      rw [List.length_cons, List.length_cons, ih hRest]

/- The clip at a position is made of the shot there. -/
theorem clip_of_clipsFrom
    {position : Nat}
    {clip : Clip}
    (hClips :
      clipsFrom config working index count s shots =
        .ok (clips, s'))
    (hGet : clips[position]? = some clip) :
    ∃ shot, ∃ s₁ s₂ : σ,
      shots[position]? = some shot ∧
        shot.clip config working (index + position) count
            s₁ = .ok (clip, s₂) := by
  induction shots generalizing index position s clips with
  | nil =>
      cases hClips
      cases hGet
  | cons shot shots ih =>
      rcases clipsFrom_cons_eq_ok_iff.mp hClips with
        ⟨first, s₁, rest, hFirst, hRest, rfl⟩
      cases position with
      | zero =>
          cases hGet
          exact ⟨shot, s, s₁, rfl, hFirst⟩
      | succ position =>
          rcases ih hRest hGet with
            ⟨other, s₂, s₃, hOther, hClip⟩
          refine ⟨other, s₂, s₃, hOther, ?_⟩
          rw [← hClip]
          congr 1
          omega

/-
  What is the same for each clip and its shot is the same,
  in order, for all clips and their shots.
-/
theorem map_of_clipsFrom
    {α : Type}
    {ofClip : Clip → α}
    {ofShot : Shot → α}
    (hSame :
      ∀ shot clip position, ∀ t t' : σ,
        Shot.clip shot config working position count t =
            .ok (clip, t') →
          ofClip clip = ofShot shot)
    (hClips :
      clipsFrom config working index count s shots =
        .ok (clips, s')) :
    clips.map ofClip = shots.map ofShot := by
  induction shots generalizing index s clips with
  | nil =>
      cases hClips
      rfl
  | cons shot shots ih =>
      rcases clipsFrom_cons_eq_ok_iff.mp hClips with
        ⟨first, s₁, rest, hFirst, hRest, rfl⟩
      rw [List.map_cons, List.map_cons, ih hRest,
        hSame _ _ _ _ _ hFirst]

/- Every clip has the blur of a shot at its position. -/
theorem blur_of_mem_clipsFrom
    (hClips :
      clipsFrom config working index count s shots =
        .ok (clips, s'))
    {clip : Clip}
    (hClip : clip ∈ clips) :
    ∃ shot ∈ shots, ∃ position,
      clip.blur = shot.blur config position count := by
  rcases List.mem_iff_getElem?.mp hClip with
    ⟨position, hGet⟩
  rcases clip_of_clipsFrom hClips hGet with
    ⟨shot, s₁, s₂, hShot, hMade⟩
  rcases Shot.clip_eq_ok_iff.mp hMade with
    ⟨_, _, _, _, _, rfl⟩
  exact ⟨shot, List.mem_of_getElem? hShot,
    index + position, rfl⟩

------------------------------------------------------------
-- Timelines
------------------------------------------------------------

/- All that building a timeline does. -/
theorem build_eq_ok_iff
    {timeline : Timeline} :
    build shots config s = .ok (timeline, s') ↔
      shots ≠ [] ∧ config.validate = .ok () ∧
        ∃ working clips s₁ transitions,
          config.workingSize = .ok working ∧
            clipsFrom config working 0 shots.length s
                shots = .ok (clips, s₁) ∧
            Schedule.transitions
                (clips.map Clip.baseDuration)
                config.overlap config.transitions s₁ =
              .ok (transitions, s') ∧
            timeline =
              ⟨clips, transitions, config.overlap,
                Schedule.total
                  (clips.map Clip.baseDuration)
                  config.overlap⟩ := by
  unfold build
  rw [Outcome.guard_eq_ok_iff]
  simp only [Outcome.bind_eq_ok_iff,
    Outcome.mapError_eq_ok_iff, List.isEmpty_iff]
  constructor
  · rintro ⟨hShots, ⟨⟩, hConfig, working, hWorking,
      ⟨clips, s₁⟩, hClips, ⟨transitions, s₂⟩, hPlaced, hEq⟩
    cases hEq
    exact ⟨hShots, hConfig, working, clips, s₁, transitions,
      hWorking, hClips, hPlaced, rfl⟩
  · rintro ⟨hShots, hConfig, working, clips, s₁,
      transitions, hWorking, hClips, hPlaced, rfl⟩
    exact ⟨hShots, (), hConfig, working, hWorking,
      (clips, s₁), hClips, (transitions, s'), hPlaced, rfl⟩

end Timeline

end Slideshow

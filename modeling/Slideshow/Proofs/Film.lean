import Slideshow.Film
import Slideshow.Picture.Png
import Slideshow.Proofs.Choice
import Slideshow.Proofs.Graph.Assembly
import Slideshow.Proofs.Motion.Path
import Slideshow.Proofs.Motion.Viewport
import Slideshow.Proofs.Scenario.Declared

/-
  This file proves what holds of every film that compiles:
  its timeline realizes the shots that are left of the
  scenario, one clip for each of them in its place, and one
  transition between neighbours.

  That a clip has a positive length is known from two tests.
  Resolving the scenario leaves out what is zero or less,
  and planning the camera path leaves out what is not
  finite.

  Key definitions include:
    * `Clip.Realizes`
    * `Timeline.Realizes`

  Main results include:
    * `Clip.realizes_of_clip`
    * `Timeline.realizes_of_build`
    * `Film.timeline_realizes`
-/

namespace Slideshow

------------------------------------------------------------
-- Clips
------------------------------------------------------------

/-
  The ramps of a clip suit a policy.  Under blur-dissolve
  every clip but the first is blurred at its head, and every
  clip but the last at its tail; else none is blurred.
-/
def ClipBlur.Suits
    (blur : ClipBlur Float)
    (policy : TransitionPolicy)
    (position count : Nat) : Prop :=
  match policy with
  | .blurDissolve =>
      (blur.head.isSome = true ↔ 0 < position) ∧
        (blur.tail.isSome = true ↔ position + 1 < count)
  | .random _ =>
      blur.head = Option.none ∧ blur.tail = Option.none

/-
  A clip shows a shot at a position among `count` shots, for
  as long as the shot lasts and one overlap more, with a
  camera that does not leave the picture.
-/
structure Clip.Realizes
    (clip : Clip)
    (shot : Shot)
    (config : Config)
    (working : FrameSize)
    (position count : Nat) : Prop where
  index_eq : clip.index = position
  shotId_eq : clip.shotId = shot.id
  image_eq : clip.image = shot.image
  baseDuration_eq : clip.baseDuration = shot.baseDuration
  baseDuration_isFinite : clip.baseDuration.isFinite = true
  baseDuration_pos : 0.0 < clip.baseDuration
  renderDuration_eq :
    clip.renderDuration = clip.baseDuration + config.overlap
  totalFrames_eq :
    clip.motion.totalFrames =
      config.rate.framesIn clip.renderDuration
  totalFrames_pos : 1 ≤ clip.motion.totalFrames
  effect_allowed : shot.Allows config clip.motion.effect
  motion_staysWithin : clip.motion.StaysWithin working
  blur_suits :
    clip.blur.Suits config.transitions position count

/- The ramps of a shot suit the policy. -/
theorem Shot.blur_suits
    (shot : Shot)
    (config : Config)
    (position count : Nat) :
    (shot.blur config position count).Suits
      config.transitions position count := by
  unfold Shot.blur ClipBlur.Suits
  cases config.transitions with
  | blurDissolve =>
      simp [TransitionPolicy.usesBlur, ClipBlur.annotate]
  | random styles =>
      simp [TransitionPolicy.usesBlur, ClipBlur.none]

/- A clip that is made of a shot that lasts shows it. -/
theorem Clip.realizes_of_clip
    {σ : Type}
    [WordSource σ]
    {shot : Shot}
    {config : Config}
    {working : FrameSize}
    {position count : Nat}
    {clip : Clip}
    {s s' : σ}
    (hPositive : ¬ shot.baseDuration ≤ 0.0)
    (hClip :
      shot.clip config working position count s =
        .ok (clip, s')) :
    clip.Realizes shot config working position count := by
  rcases Shot.clip_eq_ok_iff.mp hClip with
    ⟨effect, motion, hEffect, hMotion, hBounds, rfl⟩
  rcases MotionPath.plan_eq_ok_iff.mp hMotion with
    ⟨_, hSum, _, hFrames, rfl⟩
  have hFinite : shot.baseDuration.isFinite = true :=
    Binary.isFinite_of_isFinite_add hSum
  exact {
    index_eq := rfl
    shotId_eq := rfl
    image_eq := rfl
    baseDuration_eq := rfl
    baseDuration_isFinite := hFinite
    baseDuration_pos :=
      Binary.lt_of_not_le rfl hFinite hPositive
    renderDuration_eq := rfl
    totalFrames_eq := rfl
    totalFrames_pos := hFrames
    effect_allowed := Shot.allows_of_chooseEffect hEffect
    motion_staysWithin :=
      MotionPath.checkBounds_eq_ok_iff.mp hBounds
    blur_suits := shot.blur_suits config position count }

------------------------------------------------------------
-- Timelines
------------------------------------------------------------

/-
  A transition joins the clip at a boundary to the next one
  as the settings say.
-/
structure Transition.Realizes
    (t : Transition Float)
    (config : Config)
    (boundary : Nat) : Prop where
  boundary_eq : t.boundary = boundary
  duration_eq : t.duration = config.overlap
  style_allowed : config.transitions.Allows t.style

/-
  A timeline shows shots: there is a clip for each of them,
  in the same order, and a transition between any two
  neighbours.
-/
structure Timeline.Realizes
    (timeline : Timeline)
    (shots : List Shot)
    (config : Config)
    (working : FrameSize) : Prop where
  length_clips : timeline.clips.length = shots.length
  clip_realizes :
    ∀ (position : Nat) (shot : Shot) (clip : Clip),
      shots[position]? = some shot →
        timeline.clips[position]? = some clip →
          clip.Realizes shot config working position
            shots.length
  length_transitions :
    timeline.transitions.length + 1 = shots.length
  transition_realizes :
    ∀ (boundary : Nat) (t : Transition Float),
      timeline.transitions[boundary]? = some t →
        t.Realizes config boundary

namespace Timeline

variable {σ : Type}
variable [WordSource σ]
variable {shots : List Shot}
variable {config : Config}
variable {timeline : Timeline}
variable {s s' : σ}

/- A timeline of shots that last shows them. -/
theorem realizes_of_build
    (hPositive :
      ∀ shot ∈ shots, ¬ shot.baseDuration ≤ 0.0)
    (hBuild : build shots config s = .ok (timeline, s')) :
    ∃ working,
      config.workingSize = .ok working ∧
        timeline.Realizes shots config working := by
  have hCount := (boundaries_of_build hBuild).1
  rcases build_eq_ok_iff.mp hBuild with
    ⟨_, _, working, clips, s₁, transitions, hWorking,
      hClips, hPlaced, rfl⟩
  have hLength := length_of_clipsFrom hClips
  refine ⟨working, hWorking, hLength, ?_,
    hCount.trans hLength, ?_⟩
  · intro position shot clip hShot hGet
    rcases clip_of_clipsFrom hClips hGet with
      ⟨other, s₂, s₃, hOther, hClip⟩
    cases hShot.symm.trans hOther
    rw [Nat.zero_add] at hClip
    exact Clip.realizes_of_clip
      (hPositive shot (List.mem_of_getElem? hShot)) hClip
  · intro boundary t hGet
    rcases Schedule.picked_of_place hPlaced hGet with
      ⟨hBoundary, hDuration, _, s₂, s₃, hPick⟩
    exact ⟨by omega, hDuration,
      TransitionPolicy.allows_of_pick hPick⟩

end Timeline

------------------------------------------------------------
-- Films
------------------------------------------------------------

namespace Film

variable {σ : Type}
variable [WordSource σ]
variable [PictureReader]
variable {scenario : Scenario}
variable {tree : FileTree}
variable {limit : Option Nat}
variable {audio : Option String}
variable {config : Config}
variable {film : Film}
variable {s s' : σ}

/- All that compiling a film does. -/
theorem compile_eq_ok_iff :
    compile scenario tree limit audio config s =
        .ok (film, s') ↔
      config.validate = .ok () ∧
        scenario.resolve tree limit = .ok film.shots ∧
        Timeline.build film.shots.shots config s =
          .ok (film.timeline, s') ∧
        ∃ graph,
          film.timeline.assemble config = .ok graph ∧
            bindAudio tree audio
                film.timeline.totalDuration graph =
              .ok film.graph ∧
            film.fingerprint = film.graph.fingerprint := by
  unfold compile
  simp only [Outcome.bind_eq_ok_iff]
  constructor
  · rintro ⟨⟨⟩, hConfig, shots, hShots,
      ⟨timeline, s₁⟩, hBuild, graph, hGraph, bound, hBound,
      hEq⟩
    cases hEq
    exact ⟨hConfig, hShots, hBuild, graph, hGraph, hBound,
      rfl⟩
  · rintro ⟨hConfig, hShots, hBuild, graph, hGraph, hBound,
      hFingerprint⟩
    refine ⟨(), hConfig, film.shots, hShots,
      (film.timeline, s'), hBuild, graph, hGraph,
      film.graph, hBound, ?_⟩
    rw [← hFingerprint]
    rfl

/-
  The timeline of a film shows the shots that are left of
  its scenario, whatever words are drawn.
-/
theorem timeline_realizes
    (hCompile :
      compile scenario tree limit audio config s =
        .ok (film, s')) :
    scenario.resolve tree limit = .ok film.shots ∧
      ∃ working,
        config.workingSize = .ok working ∧
          film.timeline.Realizes film.shots.shots config
            working := by
  rcases compile_eq_ok_iff.mp hCompile with
    ⟨_, hResolve, hBuild, _⟩
  refine ⟨hResolve, Timeline.realizes_of_build ?_ hBuild⟩
  intro shot hShot
  exact Scenario.not_le_zero_of_resolve hResolve hShot

end Film

/- Three records, of which the second has no image. -/
def Scenario.gapped : Scenario where
  root := "film"
  records :=
    [⟨none, none, some "a.png", some "zoom_in", none, none⟩,
      ⟨none, none, some "b.png", none, none, none⟩,
      ⟨none, none, some "c.png", none, none, none⟩]

/- The images of the first and of the third record. -/
def FileTree.gapped : FileTree :=
  { FileTree.empty with
    entries :=
      [(["film"], .directory),
        (["film", "a.png"], .file (Png.blank ⟨8, 8⟩) 0),
        (["film", "c.png"], .file (Png.blank ⟨8, 8⟩) 0)] }

namespace Film

/- The pictures are PNG files in what follows. -/
attribute [local instance] Png.reader

/- A record without an image, a named move, a drawn one. -/
theorem timeline_realizes_gapped :
    ∃ film s',
      compile Scenario.gapped FileTree.gapped none none
          Config.coarse (WordScript.ofList [7]) =
        .ok (film, s') ∧
      Scenario.gapped.resolve FileTree.gapped none =
        .ok film.shots ∧
      ∃ working,
        Config.coarse.workingSize = .ok working ∧
          film.timeline.Realizes film.shots.shots
            Config.coarse working := by
  have hOk :
      (compile Scenario.gapped FileTree.gapped none none
        Config.coarse (WordScript.ofList [7])).isOk =
          true := by
    decide +kernel
  rcases Outcome.exists_eq_ok_of_isOk hOk with
    ⟨⟨film, s'⟩, hCompile⟩
  exact ⟨film, s', hCompile, timeline_realizes hCompile⟩

end Film

end Slideshow

import Slideshow.Proofs.Choice
import Slideshow.Proofs.Graph.Assembly

/-
  This file proves that more shots behind a film do not
  disturb what is already placed.

  The clips of the first shots are made of the same words
  whatever follows.  The number of all shots reaches a clip
  only through its blur, and there it tells no more than
  whether the clip is the last one (`Shot.blur_last`).  The
  offsets are sums of the durations in front of them.  The
  styles of random transitions may differ, since they are
  drawn behind all moves.

  Key definitions include:
    * `Clip.withoutTail`
    * `Transition.slot`
    * `Timeline.Begins`

  Main results include:
    * `Timeline.clipsFrom_append`
    * `Timeline.clipsFrom_ending`
    * `Schedule.map_eq_of_place_take`
    * `Timeline.begins_of_build_append`
-/

namespace Slideshow

------------------------------------------------------------
-- Clips
------------------------------------------------------------

/- A blur without a ramp at the tail. -/
def ClipBlur.withoutTail
    {τ : Type}
    (blur : ClipBlur τ) : ClipBlur τ :=
  { blur with tail := .none }

/- A clip that is not blurred at its tail. -/
def Clip.withoutTail (clip : Clip) : Clip :=
  { clip with blur := clip.blur.withoutTail }

namespace Shot

variable {σ : Type}
variable [WordSource σ]
variable {config : Config}
variable {working : FrameSize}
variable {shot : Shot}
variable {index count count' : Nat}
variable {s s' : σ}

/- The last of some shots is not blurred at its tail. -/
theorem blur_last
    (shot : Shot)
    (config : Config)
    (index count : Nat) :
    shot.blur config index (index + 1) =
      (shot.blur config index count).withoutTail := by
  unfold blur
  split
  · simp [ClipBlur.annotate, ClipBlur.withoutTail]
  · rfl

/- How many shots follow is the same to all others. -/
theorem blur_of_lt
    (hLt : index + 1 < count)
    (hLt' : index + 1 < count') :
    shot.blur config index count =
      shot.blur config index count' := by
  unfold blur
  simp only [ClipBlur.annotate, if_pos hLt, if_pos hLt']

/- The number of all shots only changes the blur of a clip. -/
theorem clip_of_clip
    {clip : Clip}
    (hClip :
      shot.clip config working index count s =
        .ok (clip, s')) :
    shot.clip config working index count' s =
      .ok
        ({ clip with blur := shot.blur config index count' },
          s') := by
  rcases clip_eq_ok_iff.mp hClip with
    ⟨effect, motion, hEffect, hMotion, hBounds, rfl⟩
  exact clip_eq_ok_iff.mpr
    ⟨effect, motion, hEffect, hMotion, hBounds, rfl⟩

/- A clip with others behind it is the same among more. -/
theorem clip_of_lt
    {clip : Clip}
    (hLt : index + 1 < count)
    (hLt' : index + 1 < count')
    (hClip :
      shot.clip config working index count s =
        .ok (clip, s')) :
    shot.clip config working index count' s =
      .ok (clip, s') := by
  rw [clip_of_clip hClip, ← blur_of_lt hLt hLt']
  rcases clip_eq_ok_iff.mp hClip with
    ⟨_, _, _, _, _, rfl⟩
  rfl

/- The last clip is the same without a blur at its tail. -/
theorem clip_last
    {clip : Clip}
    (hClip :
      shot.clip config working index count s =
        .ok (clip, s')) :
    shot.clip config working index (index + 1) s =
      .ok (clip.withoutTail, s') := by
  rw [clip_of_clip hClip, blur_last shot config index count]
  rcases clip_eq_ok_iff.mp hClip with
    ⟨_, _, _, _, _, rfl⟩
  rfl

end Shot

namespace Timeline

variable {σ : Type}
variable [WordSource σ]
variable {config : Config}
variable {working : FrameSize}
variable {index count : Nat}
variable {s s' : σ}
variable {shots more : List Shot}
variable {clips : List Clip}

/- The clips of the first shots are made before the rest. -/
theorem clipsFrom_append
    (hClips :
      clipsFrom config working index count s
        (shots ++ more) = .ok (clips, s')) :
    ∃ first s₁ rest,
      clipsFrom config working index count s shots =
          .ok (first, s₁) ∧
        clips = first ++ rest := by
  induction shots generalizing index s clips with
  | nil => exact ⟨[], s, clips, rfl, rfl⟩
  | cons shot shots ih =>
      rcases clipsFrom_cons_eq_ok_iff.mp hClips with
        ⟨clip, s₁, behind, hClip, hBehind, rfl⟩
      rcases ih hBehind with ⟨first, s₂, rest, hFirst, rfl⟩
      exact ⟨clip :: first, s₂, rest,
        clipsFrom_cons_eq_ok_iff.mpr
          ⟨clip, s₁, first, hClip, hFirst, rfl⟩, rfl⟩

/-
  The clips of some shots without the others behind them are
  the same, apart from the tail of the last one.
-/
theorem clipsFrom_ending
    (hClips :
      clipsFrom config working index count s shots =
        .ok (clips, s'))
    (hCount : index + shots.length ≤ count) :
    clipsFrom config working index (index + shots.length)
        s shots =
      .ok
        (clips.modify (shots.length - 1) Clip.withoutTail,
          s') := by
  induction shots generalizing index s clips with
  | nil =>
      cases hClips
      rfl
  | cons shot shots ih =>
      rcases clipsFrom_cons_eq_ok_iff.mp hClips with
        ⟨clip, s₁, behind, hClip, hBehind, rfl⟩
      rw [List.length_cons] at hCount
      cases shots with
      | nil =>
          cases hBehind
          exact clipsFrom_cons_eq_ok_iff.mpr
            ⟨clip.withoutTail, s', [],
              Shot.clip_last hClip, rfl, rfl⟩
      | cons next shots =>
          have hEnd :
              index + (shot :: next :: shots).length =
                index + 1 + (next :: shots).length := by
            simp only [List.length_cons]
            omega
          have hRest := ih hBehind (by omega)
          have hLt :
              index + 1 <
                index + 1 + (next :: shots).length := by
            rw [List.length_cons]
            omega
          rw [hEnd, clipsFrom_cons_eq_ok_iff]
          refine ⟨clip, s₁, _,
            Shot.clip_of_lt (by omega) hLt hClip, hRest, ?_⟩
          rfl

end Timeline

------------------------------------------------------------
-- Transitions
------------------------------------------------------------

/- The place of a transition: all of it but its style. -/
def Transition.slot
    {τ : Type}
    (t : Transition τ) : Nat × τ × τ :=
  (t.boundary, t.duration, t.offset)

namespace Schedule

variable {τ σ : Type}
variable [WordSource σ]
variable {overlap : τ}
variable {policy : TransitionPolicy}
variable {s t s₁ t₁ : σ}

/-
  What does not depend on the source is the same of the
  first transitions, whether or not there are more.
-/
theorem map_eq_of_place_take
    {γ : Type}
    {g : Transition τ → γ}
    (hPick :
      ∀ (boundary : Nat) (offset : τ)
        (style style' : TransitionStyle) (s s₁ t t₁ : σ),
        policy.pick s = .ok (style, s₁) →
          policy.pick t = .ok (style', t₁) →
            g ⟨boundary, style, overlap, offset⟩ =
              g ⟨boundary, style', overlap, offset⟩)
    {boundary k : Nat}
    {offsets : List τ}
    {whole part : List (Transition τ)}
    (hWhole :
      place overlap policy boundary s offsets =
        .ok (whole, s₁))
    (hPart :
      place overlap policy boundary t (offsets.take k) =
        .ok (part, t₁)) :
    part.map g = (whole.take k).map g := by
  induction offsets generalizing boundary k s t whole
    part with
  | nil =>
      rw [List.take_nil] at hPart
      cases hWhole
      cases hPart
      rw [List.take_nil]
  | cons offset offsets ih =>
      cases k with
      | zero =>
          cases hPart
          rfl
      | succ k =>
          rw [List.take_succ_cons] at hPart
          rcases place_cons_eq_ok_iff.mp hWhole with
            ⟨style, s₂, rest, hStyle, hRest, rfl⟩
          rcases place_cons_eq_ok_iff.mp hPart with
            ⟨style', t₂, rest', hStyle', hRest', rfl⟩
          rw [List.take_succ_cons, List.map_cons,
            List.map_cons, ih hRest hRest',
            hPick boundary offset style style' s s₂ t t₂
              hStyle hStyle']

/- A usable policy lets transitions be placed. -/
theorem exists_place
    (overlap : τ)
    (hValid : policy.validate = .ok ())
    (boundary : Nat)
    (offsets : List τ)
    (s : σ) :
    ∃ placed s₁,
      place overlap policy boundary s offsets =
        .ok (placed, s₁) := by
  induction offsets generalizing boundary s with
  | nil => exact ⟨[], s, rfl⟩
  | cons offset offsets ih =>
      rcases policy.exists_pick s hValid with
        ⟨style, s₂, hPick⟩
      rcases ih (boundary + 1) s₂ with ⟨rest, s₁, hRest⟩
      exact ⟨_, s₁, place_cons_eq_ok_iff.mpr
        ⟨style, s₂, rest, hPick, hRest, rfl⟩⟩

/- The ends of the first clips come first. -/
theorem offsetsFrom_append
    [Add τ]
    (start : τ)
    (durations more : List τ) :
    offsetsFrom start (durations ++ more) =
      offsetsFrom start durations ++
        offsetsFrom (durations.foldl (· + ·) start)
          more := by
  induction durations generalizing start with
  | nil => rfl
  | cons d ds ih =>
      rw [List.cons_append, offsetsFrom, ih, offsetsFrom,
        List.foldl_cons, List.cons_append]

/- The offsets of the first transitions come first. -/
theorem take_offsets_append
    [Add τ] [OfNat τ 0]
    (durations more : List τ) :
    (offsets durations).take (durations.length - 1) =
      ((offsets (durations ++ more)).take
        ((durations ++ more).length - 1)).take
          (durations.length - 1) := by
  rw [List.take_take, List.length_append,
    Nat.min_eq_left (by omega), offsets, offsets,
    offsetsFrom_append, List.take_append_of_le_length]
  rw [length_offsetsFrom]
  omega

/-
  The transitions between the first clips can be placed from
  any source if those between all clips can, in the same
  places, and in the same styles if none are drawn.
-/
theorem exists_transitions_of_append
    [Add τ] [OfNat τ 0]
    {durations more : List τ}
    {whole : List (Transition τ)}
    (hValid : policy.validate = .ok ())
    (hWhole :
      transitions (durations ++ more) overlap policy s =
        .ok (whole, s₁))
    (t : σ) :
    ∃ part t₁,
      transitions durations overlap policy t =
          .ok (part, t₁) ∧
        part.map Transition.slot =
          (whole.take (durations.length - 1)).map
            Transition.slot ∧
        (policy = .blurDissolve →
          part = whole.take (durations.length - 1)) := by
  rcases exists_place overlap hValid 0
      ((offsets durations).take (durations.length - 1))
      t with
    ⟨part, t₁, hPart⟩
  have hTaken := hPart
  rw [take_offsets_append durations more] at hTaken
  refine ⟨part, t₁, hPart, ?_, ?_⟩
  · apply map_eq_of_place_take ?_ hWhole hTaken
    intros
    rfl
  · rintro rfl
    have hSame :
        part.map id =
          (whole.take (durations.length - 1)).map id := by
      apply map_eq_of_place_take ?_ hWhole hTaken
      intro boundary offset style style' u u₁ v v₁ hStyle
        hStyle'
      cases hStyle
      cases hStyle'
      rfl
    rwa [List.map_id, List.map_id] at hSame

end Schedule

------------------------------------------------------------
-- Timelines
------------------------------------------------------------

namespace Timeline

/-
  A timeline of `count` clips begins a longer one.  Its
  clips are the first ones of it, but for the tail of the
  last, and its transitions are in the same places.  Under
  the blur-dissolve they are the same.
-/
structure Begins
    (part whole : Timeline)
    (policy : TransitionPolicy)
    (count : Nat) : Prop where
  length_clips : part.clips.length = count
  clips_eq :
    part.clips =
      (whole.clips.take count).modify (count - 1)
        Clip.withoutTail
  length_transitions : part.transitions.length + 1 = count
  slots_eq :
    part.transitions.map Transition.slot =
      (whole.transitions.take (count - 1)).map
        Transition.slot
  transitions_eq :
    policy = .blurDissolve →
      part.transitions = whole.transitions.take (count - 1)

/- A blur does not change how long a clip lasts. -/
theorem map_baseDuration_modify
    (clips : List Clip)
    (position : Nat) :
    (clips.modify position Clip.withoutTail).map
        Clip.baseDuration =
      clips.map Clip.baseDuration := by
  induction clips generalizing position with
  | nil => rw [List.modify_nil]
  | cons clip clips ih =>
      cases position with
      | zero => rfl
      | succ position =>
          rw [List.modify_succ_cons, List.map_cons,
            List.map_cons, ih]

variable {σ : Type}
variable [WordSource σ]
variable {config : Config}
variable {s s' : σ}
variable {shots more : List Shot}
variable {whole : Timeline}

/-
  If shots with more behind them make a timeline, then they
  make one alone, from the same source, which begins it.
-/
theorem begins_of_build_append
    (hShots : shots ≠ [])
    (hBuild :
      build (shots ++ more) config s = .ok (whole, s')) :
    ∃ part s₁,
      build shots config s = .ok (part, s₁) ∧
        part.Begins whole config.transitions
          shots.length := by
  rcases build_eq_ok_iff.mp hBuild with
    ⟨_, hConfig, working, clips, s₂, transitions, hWorking,
      hClips, hPlaced, rfl⟩
  rcases clipsFrom_append hClips with
    ⟨first, s₁, rest, hFirst, rfl⟩
  have hLength := length_of_clipsFrom hFirst
  have hMade := clipsFrom_ending hFirst (by simp)
  rw [Nat.zero_add] at hMade
  rw [List.map_append] at hPlaced
  rcases Schedule.exists_transitions_of_append
      (Config.validate_transitions hConfig) hPlaced s₁ with
    ⟨placed, s₃, hPart, hSlots, hSame⟩
  rw [List.length_map, hLength] at hSlots hSame
  rw [← map_baseDuration_modify first (shots.length - 1)]
    at hPart
  have hPartBuild :=
    build_eq_ok_iff.mpr
      ⟨hShots, hConfig, working, _, s₁, placed, hWorking,
        hMade, hPart, rfl⟩
  have hCount :
      (first.modify (shots.length - 1)
        Clip.withoutTail).length = shots.length := by
    rw [List.length_modify, hLength]
  refine ⟨_, s₃, hPartBuild, {
    length_clips := hCount
    clips_eq := ?_
    length_transitions :=
      (boundaries_of_build hPartBuild).1.trans hCount
    slots_eq := hSlots
    transitions_eq := hSame }⟩
  show first.modify (shots.length - 1) Clip.withoutTail =
    ((first ++ rest).take shots.length).modify
      (shots.length - 1) Clip.withoutTail
  rw [← hLength, List.take_left]

/- Two shots that have two more behind them. -/
theorem begins_of_build_append_couple :
    Shot.couple ≠ [] ∧
      ∃ whole s' part s₁,
        build (Shot.couple ++ Shot.couple) Config.coarse
            (WordScript.ofList [7, 11]) =
          .ok (whole, s') ∧
        build Shot.couple Config.coarse
            (WordScript.ofList [7, 11]) =
          .ok (part, s₁) ∧
        part.Begins whole .blurDissolve 2 := by
  have hOk :
      (build (Shot.couple ++ Shot.couple) Config.coarse
        (WordScript.ofList [7, 11])).isOk = true := by
    decide +kernel
  have hShots : Shot.couple ≠ [] := List.cons_ne_nil _ _
  rcases Outcome.exists_eq_ok_of_isOk hOk with
    ⟨⟨whole, s'⟩, hBuild⟩
  rcases begins_of_build_append hShots hBuild with
    ⟨part, s₁, hPart, hBegins⟩
  exact ⟨hShots, whole, s', part, s₁, hBuild, hPart,
    hBegins⟩

end Timeline

end Slideshow

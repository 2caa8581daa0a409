import Slideshow.Proofs.Frame.Exact
import Slideshow.Proofs.Motion.Path
import Slideshow.Proofs.Playback.Dissolve
import Slideshow.Proofs.Timeline.Append

/-
  This file proves that the frames of a film fall short of
  its schedule by less than one frame, at every transition
  and at its end, when times are exact.

  A dissolve plays its second stream from its own offset on
  and forgets how long the first one is.  So what is cut off
  of the clips is not summed up: a stream falls short by
  what is cut off of its last clip alone.

  Footage is what a timeline says about lengths: the frames
  of the clips, the transitions, and the length of the film.
  It is made with any kind of number, so that it can be made
  with fractions.

  Key definitions include:
    * `Reel.length?`
    * `Reel.into?`
    * `Footage`
    * `Footage.make`
    * `Footage.IsFilled`
    * `Footage.exactLengths`

  Main results include:
    * `Reel.length?_ofTransitions_concat`
    * `Reel.into?_ofTransitions`
    * `Timeline.footage_of_build`
    * `Footage.isCutOff_take`
    * `Footage.isFilled_of_make`
    * `Footage.make_isFilled`
-/

namespace Slideshow

------------------------------------------------------------
-- Lengths of Reels
------------------------------------------------------------

namespace Reel

variable {τ : Type}

/-
  How long a reel lasts if its clips have the given lengths.
  A dissolve plays its second stream from its offset on and
  ends with it.
-/
def length?
    [Add τ]
    (lengths : List τ) :
    Reel τ → Option τ
  | .clip i => lengths[i]?
  | .dissolve t _ second =>
      (second.length? lengths).map (t.offset + ·)

/- What the transition at a boundary dissolves from. -/
def into?
    (boundary : Nat) :
    Reel τ → Option (Reel τ)
  | .clip _ => none
  | .dissolve t first second =>
      if t.boundary = boundary then some first
      else
        (first.into? boundary).or (second.into? boundary)

variable {transitions : List (Transition τ)}

/- A reel lasts until its last clip ends. -/
theorem length?_ofTransitions_concat
    [Add τ]
    {lengths : List τ}
    {t : Transition τ} :
    (ofTransitions (transitions ++ [t])).length? lengths =
      (lengths[transitions.length + 1]?).map
        (t.offset + ·) := by
  rw [ofTransitions, extend_concat, Nat.add_comm]
  rfl

/-
  If boundaries are counted from zero, a transition
  dissolves from the reel of those before it.
-/
theorem into?_ofTransitions
    {k : Nat}
    (hBoundaries :
      transitions.map Transition.boundary =
        List.range transitions.length)
    (hk : k < transitions.length) :
    (ofTransitions transitions).into? k =
      some (ofTransitions (transitions.take k)) := by
  induction transitions using List.reverseRecOn with
  | nil =>
      exact absurd hk (Nat.not_lt_zero k)
  | append_singleton before t ih =>
      rw [List.map_append, List.length_append,
        List.length_singleton, List.range_succ] at hBoundaries
      rcases List.append_inj' hBoundaries rfl with
        ⟨hBefore, hLast⟩
      have hBoundary : t.boundary = before.length :=
        List.head_eq_of_cons_eq hLast
      rw [List.length_append, List.length_singleton] at hk
      rw [ofTransitions, extend_concat, into?, hBoundary]
      rcases Nat.lt_or_eq_of_le (Nat.le_of_lt_succ hk) with
        hLt | rfl
      · rw [if_neg (by omega),
          List.take_append_of_le_length hLt.le]
        rw [ofTransitions] at ih
        rw [ih hBefore hLt]
        rfl
      · rw [if_pos rfl, List.take_left]
        rfl

end Reel

------------------------------------------------------------
-- Footage
------------------------------------------------------------

/- The frames of clips and the schedule they are cut to. -/
structure Footage (τ : Type) where
  frames : List Nat
  transitions : List (Transition τ)
  total : τ

namespace Footage

variable {τ : Type}

/- The reel of the transitions. -/
def reel (footage : Footage τ) : Reel τ :=
  .ofTransitions footage.transitions

/- The exact lengths of the clips. -/
def lengths
    (footage : Footage τ)
    (rate : FrameRate) : List ℚ :=
  footage.frames.map rate.secondsOfFrames

/-
  The footage of clips of given durations, if frames are
  counted in the given way.
-/
def make
    {σ : Type}
    [WordSource σ]
    [Add τ] [OfNat τ 0]
    (framesIn : τ → Nat)
    (durations : List τ)
    (overlap : τ)
    (policy : TransitionPolicy)
    (s : σ) : Except TransitionFault (Footage τ × σ) := do
  let (transitions, s) ←
    Schedule.transitions durations overlap policy s
  return (⟨durations.map fun d => framesIn (d + overlap),
    transitions, Schedule.total durations overlap⟩, s)

/- All that making footage does. -/
theorem make_eq_ok_iff
    {σ : Type}
    [WordSource σ]
    [Add τ] [OfNat τ 0]
    {framesIn : τ → Nat}
    {durations : List τ}
    {overlap : τ}
    {policy : TransitionPolicy}
    {s s' : σ}
    {footage : Footage τ} :
    make framesIn durations overlap policy s =
        .ok (footage, s') ↔
      ∃ transitions,
        Schedule.transitions durations overlap policy s =
            .ok (transitions, s') ∧
          footage =
            ⟨durations.map fun d => framesIn (d + overlap),
              transitions,
              Schedule.total durations overlap⟩ := by
  rw [make, Outcome.bind_eq_ok_iff]
  constructor
  · rintro ⟨⟨transitions, s₁⟩, hPlaced, hEq⟩
    cases hEq
    exact ⟨transitions, hPlaced, rfl⟩
  · rintro ⟨transitions, hPlaced, rfl⟩
    exact ⟨(transitions, s'), hPlaced, rfl⟩

/- Footage can be made under a usable policy. -/
theorem exists_make
    {σ : Type}
    [WordSource σ]
    [Add τ] [OfNat τ 0]
    {policy : TransitionPolicy}
    (hValid : policy.validate = .ok ())
    (framesIn : τ → Nat)
    (durations : List τ)
    (overlap : τ)
    (s : σ) :
    ∃ footage s',
      make framesIn durations overlap policy s =
        .ok (footage, s') := by
  rcases Schedule.exists_place overlap hValid 0
      ((Schedule.offsets durations).take
        (durations.length - 1)) s with
    ⟨placed, s', hPlaced⟩
  exact ⟨_, s', make_eq_ok_iff.mpr ⟨placed, hPlaced, rfl⟩⟩

end Footage

namespace Timeline

variable {σ : Type}
variable [WordSource σ]
variable {shots : List Shot}
variable {config : Config}
variable {s s' : σ}

/- What a timeline says about lengths. -/
def footage (timeline : Timeline) : Footage Float :=
  ⟨timeline.clips.map fun clip =>
      clip.motion.totalFrames.toNat,
    timeline.transitions, timeline.totalDuration⟩

/- Clips have the frames of their shots and the overlap. -/
theorem frames_of_clipsFrom
    {working : FrameSize}
    {index count : Nat}
    {clips : List Clip}
    (hClips :
      clipsFrom config working index count s shots =
        .ok (clips, s')) :
    (clips.map fun clip => clip.motion.totalFrames.toNat) =
      shots.map fun shot =>
        (config.rate.framesIn
          (shot.baseDuration + config.overlap)).toNat := by
  apply map_of_clipsFrom ?_ hClips
  intro shot clip position t t' hClip
  rcases Shot.clip_eq_ok_iff.mp hClip with
    ⟨_, motion, _, hMotion, _, rfl⟩
  rcases MotionPath.plan_eq_ok_iff.mp hMotion with
    ⟨_, _, _, _, rfl⟩
  rfl

/-
  The timeline that is built of shots has the footage of
  their durations.
-/
theorem footage_of_build
    {timeline : Timeline}
    (hBuild : build shots config s = .ok (timeline, s')) :
    ∃ s₁ : σ,
      Footage.make
          (fun seconds =>
            (config.rate.framesIn seconds).toNat)
          (shots.map Shot.baseDuration) config.overlap
          config.transitions s₁ =
        .ok (timeline.footage, s') := by
  rcases build_eq_ok_iff.mp hBuild with
    ⟨_, _, working, clips, s₁, transitions, _, hClips,
      hPlaced, rfl⟩
  rw [baseDurations_of_clipsFrom hClips] at hPlaced
  refine ⟨s₁, Footage.make_eq_ok_iff.mpr
    ⟨transitions, hPlaced, ?_⟩⟩
  rw [footage, baseDurations_of_clipsFrom hClips,
    frames_of_clipsFrom hClips, List.map_map]
  rfl

end Timeline

------------------------------------------------------------
-- Exact Footage
------------------------------------------------------------

theorem Schedule.exactTotal_eq
    {durations : List ℚ}
    {overlap : ℚ}
    (hDurations : durations ≠ []) :
    total durations overlap =
      durations.sum + overlap := by
  rw [List.sum_eq_foldl]
  exact total_eq_foldl (fun d _ => zero_add d) hDurations

namespace Footage

/-
  The stream in front of each transition lasts until the
  transition ends, and the whole lasts as long as the film,
  both but for less than one frame.
-/
structure IsFilled
    (footage : Footage ℚ)
    (overlap : ℚ)
    (rate : FrameRate) : Prop where
  boundaries :
    footage.transitions.map Transition.boundary =
      List.range (footage.frames.length - 1)
  isCutOff_into :
    ∀ t ∈ footage.transitions,
      ∃ first length,
        footage.reel.into? t.boundary = some first ∧
          first.length? (footage.lengths rate) =
            some length ∧
          rate.IsCutOff (t.offset + overlap) length
  isCutOff_total :
    ∃ length,
      footage.reel.length? (footage.lengths rate) =
          some length ∧
        rate.IsCutOff footage.total length

/- The exact lengths of clips of given durations. -/
def exactLengths
    (rate : FrameRate)
    (durations : List ℚ)
    (overlap : ℚ) : List ℚ :=
  durations.map fun d =>
    rate.secondsOfFrames (rate.exactFramesIn (d + overlap))

section Exact

variable {σ : Type}
variable [WordSource σ]
variable {rate : FrameRate}
variable {durations : List ℚ}
variable {overlap : ℚ}
variable {policy : TransitionPolicy}
variable {s s' : σ}
variable {placed : List (Transition ℚ)}
variable (hPlaced :
  Schedule.transitions durations overlap policy s =
    .ok (placed, s'))

include hPlaced

/-
  The reel up to a clip lasts as long as the durations in
  front of the clip and the clip itself.
-/
theorem length?_take
    {lengths : List ℚ}
    {k : Nat}
    (hk : k < durations.length) :
    (Reel.ofTransitions (placed.take k)).length? lengths =
      (lengths[k]?).map ((durations.take k).sum + ·) := by
  cases k with
  | zero =>
      simp [Reel.ofTransitions, Reel.extend, Reel.length?]
  | succ k =>
      rcases
        Schedule.exactTransition_of_transitions hPlaced
          hk with
        ⟨t, hGet, _, _, hOffset⟩
      have hLength : (placed.take k).length = k := by
        rw [List.length_take,
          Schedule.length_of_transitions hPlaced]
        omega
      rw [List.take_add_one, hGet, Option.toList_some,
        Reel.length?_ofTransitions_concat, hLength, hOffset]

variable (hNum : 0 < rate.num.toNat)
variable (hDen : 0 < rate.den.toNat)
variable (hPositive : ∀ d ∈ durations, 0 < d)
variable (hOverlap : 0 < overlap)

include hNum hDen hPositive hOverlap

/-
  Of the durations up to a clip and one overlap, the reel up
  to the clip is cut off by less than one frame: by what is
  cut off of this clip.
-/
theorem isCutOff_take
    {k : Nat}
    (hk : k < durations.length) :
    ∃ length,
      (Reel.ofTransitions (placed.take k)).length?
          (exactLengths rate durations overlap) =
          some length ∧
        rate.IsCutOff
          ((durations.take (k + 1)).sum + overlap)
          length := by
  have hGet := List.getElem?_eq_getElem hk
  have hTime : 0 < durations[k] + overlap :=
    add_pos (hPositive _ (List.getElem_mem hk)) hOverlap
  have hSum :
      (durations.take (k + 1)).sum + overlap =
        (durations.take k).sum +
          (durations[k] + overlap) := by
    rw [List.take_add_one, hGet, Option.toList_some,
      List.sum_append, List.sum_singleton, add_assoc]
  have hClip :=
    FrameRate.isCutOff_secondsOfFrames hNum hDen hTime.le
  refine ⟨(durations.take k).sum +
    rate.secondsOfFrames
      (rate.exactFramesIn (durations[k] + overlap)), ?_, ?_⟩
  · rw [length?_take hPlaced hk, exactLengths,
      List.getElem?_map, hGet]
    rfl
  · rw [hSum]
    exact hClip.add_left _

/- The reel in front of a transition lasts until it ends. -/
theorem isCutOff_into
    {t : Transition ℚ}
    (hMem : t ∈ placed) :
    ∃ first length,
      (Reel.ofTransitions placed).into? t.boundary =
          some first ∧
        first.length?
            (exactLengths rate durations overlap) =
          some length ∧
        rate.IsCutOff (t.offset + overlap) length := by
  have hCount := Schedule.length_of_transitions hPlaced
  have hBoundaries :=
    Schedule.boundaries_of_transitions hPlaced
  rw [← hCount] at hBoundaries
  rcases List.mem_iff_getElem?.mp hMem with ⟨k, hGet⟩
  have hk : k < placed.length :=
    (List.getElem?_eq_some_iff.mp hGet).1
  rcases
    Schedule.exactTransition_of_transitions hPlaced
      (k := k) (by omega) with
    ⟨u, hSame, hBoundary, _, hOffset⟩
  obtain rfl : t = u :=
    Option.some.inj (hGet.symm.trans hSame)
  rcases isCutOff_take hPlaced hNum hDen hPositive hOverlap
      (k := k) (by omega) with
    ⟨length, hLength, hShort⟩
  rw [hBoundary, hOffset]
  exact ⟨_, length, Reel.into?_ofTransitions hBoundaries hk,
    hLength, hShort⟩

/- The whole reel lasts until the film ends. -/
theorem isCutOff_total
    (hDurations : durations ≠ []) :
    ∃ length,
      (Reel.ofTransitions placed).length?
          (exactLengths rate durations overlap) =
          some length ∧
        rate.IsCutOff (Schedule.total durations overlap)
          length := by
  have hSome := List.length_pos_iff.mpr hDurations
  have hAll :
      placed.take (durations.length - 1) = placed := by
    rw [← Schedule.length_of_transitions hPlaced,
      List.take_length]
  have hWhole :=
    isCutOff_take hPlaced hNum hDen hPositive hOverlap
      (k := durations.length - 1) (by omega)
  rw [hAll, Nat.sub_add_cancel hSome, List.take_length]
    at hWhole
  rw [Schedule.exactTotal_eq hDurations]
  exact hWhole

omit hPlaced in
/- Footage of exact durations is filled. -/
theorem isFilled_of_make
    {footage : Footage ℚ}
    (hDurations : durations ≠ [])
    (hMake :
      make rate.exactFramesIn durations overlap policy s =
        .ok (footage, s')) :
    footage.IsFilled overlap rate := by
  rcases make_eq_ok_iff.mp hMake with
    ⟨placed, hPlaced, rfl⟩
  have hLengths :
      (durations.map fun d =>
          rate.exactFramesIn (d + overlap)).map
        rate.secondsOfFrames =
        exactLengths rate durations overlap :=
    List.map_map
  refine ⟨?_, ?_, ?_⟩
  · rw [List.length_map]
    exact Schedule.boundaries_of_transitions hPlaced
  · intro t hMem
    rw [lengths, hLengths]
    exact isCutOff_into hPlaced hNum hDen hPositive hOverlap
      hMem
  · rw [lengths, hLengths]
    exact isCutOff_total hPlaced hNum hDen hPositive
      hOverlap hDurations

end Exact

/-
  Footage can be made of any exact durations, and is filled.
  The timelines of shots are made by the same steps, their
  graphs make the reels of their footage, and frames are
  counted as in exact time if the product of a time and the
  frame rate is exact.
-/
theorem make_isFilled :
    (∀ (σ : Type) [WordSource σ]
      (num den : UInt32)
      (rate : FrameRate)
      (durations : List ℚ)
      (overlap : ℚ)
      (policy : TransitionPolicy)
      (s : σ),
      FrameRate.checked num den = .ok rate →
        durations ≠ [] → (∀ d ∈ durations, 0 < d) →
        0 < overlap →
          (policy.validate = .ok () →
            ∃ footage s',
              make rate.exactFramesIn durations overlap
                policy s = .ok (footage, s')) ∧
            ∀ footage s',
              make rate.exactFramesIn durations overlap
                  policy s = .ok (footage, s') →
                footage.IsFilled overlap rate) ∧
      (∀ (σ : Type) [WordSource σ]
        (shots : List Shot)
        (config : Config)
        (s s' : σ)
        (timeline : Timeline),
        Timeline.build shots config s =
            .ok (timeline, s') →
          (∃ s₁ : σ,
            make
                (fun seconds =>
                  (config.rate.framesIn seconds).toNat)
                (shots.map Shot.baseDuration)
                config.overlap config.transitions s₁ =
              .ok (timeline.footage, s')) ∧
            ∃ graph whole used,
              timeline.assemble config = .ok graph ∧
                graph.Unfolds [.label graph.output] [whole]
                  used ∧
                whole.reel? =
                  some timeline.footage.reel) ∧
      ∀ (rate : FrameRate) (seconds : Float) (time : ℚ),
        Binary.exactValue? (seconds * rate.perSecond) =
            some (time * rate.exactPerSecond) →
          (rate.framesIn seconds).toNat =
            min (rate.exactFramesIn time) (2 ^ 64 - 1) := by
  refine ⟨?_, ?_, ?_⟩
  · intro σ _ num den rate durations overlap policy s hRate
      hDurations hPositive hOverlap
    rcases FrameRate.checked_eq_ok_iff.mp hRate with
      ⟨-, hNum, hDen⟩
    refine ⟨fun hValid => exists_make hValid _ _ _ s, ?_⟩
    intro footage s' hMake
    exact isFilled_of_make hNum hDen hPositive hOverlap
      hDurations hMake
  · intro σ _ shots config s s' timeline hBuild
    exact ⟨Timeline.footage_of_build hBuild,
      Timeline.exists_reel_of_build hBuild⟩
  · intro rate seconds time hExact
    exact FrameRate.toNat_framesIn hExact

/-
  Three durations that are no whole numbers of frames, the
  timeline of two shots, and a time at four frames a second.
-/
theorem make_isFilled_trio :
    (∃ footage s',
      make (FrameRate.exactFramesIn ⟨24, 1⟩)
            [1 / 5, 3 / 7, 2] (1 / 3)
            (.random [.fade, .slideLeft])
            (WordScript.ofList [7, 4]) =
          .ok (footage, s') ∧
        footage.IsFilled (1 / 3) ⟨24, 1⟩) ∧
      (∃ timeline s',
        Timeline.build Shot.couple Config.coarse
            (WordScript.ofList [7]) = .ok (timeline, s') ∧
          ∃ graph whole used,
            timeline.assemble Config.coarse = .ok graph ∧
              graph.Unfolds [.label graph.output] [whole]
                used ∧
              whole.reel? = some timeline.footage.reel) ∧
      (FrameRate.framesIn ⟨4, 1⟩ 0.875).toNat = 3 := by
  have hRate : FrameRate.checked 24 1 = .ok ⟨24, 1⟩ := rfl
  have hPositive :
      ∀ d ∈ ([1 / 5, 3 / 7, 2] : List ℚ), 0 < d := by
    decide +kernel
  have hExists :
      ∃ timeline s',
        Timeline.build Shot.couple Config.coarse
          (WordScript.ofList [7]) = .ok (timeline, s') :=
    ⟨_, _, rfl⟩
  rcases make_isFilled.1 _ _ _ _ _ (1 / 3)
      (.random [.fade, .slideLeft])
      (WordScript.ofList [7, 4]) hRate
      (List.cons_ne_nil _ _) hPositive (by norm_num) with
    ⟨hMake, hFilled⟩
  rcases hMake rfl with ⟨footage, s', hMade⟩
  rcases hExists with ⟨timeline, s₁, hBuild⟩
  refine ⟨⟨footage, s', hMade, hFilled _ _ hMade⟩,
    ⟨timeline, s₁, hBuild,
      (make_isFilled.2.1 _ _ _ _ _ _ hBuild).2⟩, ?_⟩
  have hPerSecond :
      FrameRate.exactPerSecond ⟨4, 1⟩ = 4 := by
    show ((4 : ℕ) : ℚ) / (1 : ℕ) = 4
    norm_num
  have hFields :
      Binary.ofFloat (0.875 * FrameRate.perSecond ⟨4, 1⟩) =
        .finite false 7881299347898368 (-51) := rfl
  have hExact :
      Binary.exactValue?
          (0.875 * FrameRate.perSecond ⟨4, 1⟩) =
        some (7 / 8 * FrameRate.exactPerSecond ⟨4, 1⟩) := by
    rw [Binary.exactValue?, hFields, Binary.value?, hPerSecond]
    norm_num [Binary.magnitude]
  have hFrames :
      FrameRate.exactFramesIn ⟨4, 1⟩ (7 / 8) = 3 := by
    rw [FrameRate.exactFramesIn, hPerSecond]
    norm_num
  rw [make_isFilled.2.2 _ _ _ hExact, hFrames]
  rfl

end Footage

end Slideshow

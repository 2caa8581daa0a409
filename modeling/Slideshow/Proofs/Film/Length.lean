import Slideshow.Film.Document
import Slideshow.Proofs.Audio.Chunks
import Slideshow.Proofs.Audio.Fit
import Slideshow.Proofs.Decimal.Sum
import Slideshow.Proofs.Film
import Slideshow.Proofs.Timeline.Offsets

/-
  This file proves that a film has one length, which is told
  and used everywhere: in its timeline, its graph and its
  description, for the fit of its narration, and where the
  renderer cuts the result.

  The length is computed apart from the schedule.  Both add
  the same durations from the left, one from zero and one
  from the first duration, which is positive, so that both
  round alike and the last transition ends where the last
  clip is left alone.

  Key definitions include:
    * `Film.LastsFor`

  Main results include:
    * `AudioTrack.bind_eq_ok_iff`
    * `Timeline.totalDuration_of_build`
    * `Timeline.totalDuration_pos_of_build`
    * `Film.lastsFor_of_compile`
    * `Film.fit_tells_of_compile`
-/

namespace Slideshow

------------------------------------------------------------
-- Narrations
------------------------------------------------------------

/- All that binding a narration does. -/
theorem AudioTrack.bind_eq_ok_iff
    {tree : FileTree}
    {path : String}
    {video : Float}
    {track : AudioTrack} :
    bind tree path video = .ok track ↔
      tree.isFile path = true ∧
        track =
          ⟨path, seconds? tree path,
            .classify (seconds? tree path) video⟩ := by
  unfold bind
  by_cases hFile : tree.isFile path = true
  · rw [if_pos hFile]
    simp [hFile, eq_comm]
  · rw [if_neg hFile]
    simp [hFile]

/- The verdict is that on the lengths of both. -/
theorem AudioTrack.fit_of_bind
    {tree : FileTree}
    {path : String}
    {video : Float}
    {track : AudioTrack}
    (hBind : bind tree path video = .ok track) :
    track.fit = .classify track.duration video := by
  rw [(bind_eq_ok_iff.mp hBind).2]

/- A playing time that is known was read from a header. -/
theorem AudioTrack.exists_duration_of_bind
    {tree : FileTree}
    {path : String}
    {video seconds : Float}
    {track : AudioTrack}
    (hBind : bind tree path video = .ok track)
    (hSeconds : track.duration = some seconds) :
    ∃ t, Binary.exactValue? seconds = some t ∧ 0 ≤ t := by
  rw [(bind_eq_ok_iff.mp hBind).2] at hSeconds
  simp only [seconds?] at hSeconds
  by_cases hWave : Path.hasExtension path "wav" = true
  · rw [if_pos hWave] at hSeconds
    cases hLoad : WaveInfo.load tree path with
    | error e =>
        rw [hLoad] at hSeconds
        cases hSeconds
    | ok info =>
        rw [hLoad] at hSeconds
        cases hSeconds
        unfold WaveInfo.load at hLoad
        cases hRead : tree.read path with
        | error cause =>
            rw [hRead] at hLoad
            cases hLoad
        | ok bytes =>
            rw [hRead] at hLoad
            rcases Wave.read_eq_ok_iff.mp
              (Outcome.mapError_eq_ok_iff.mp hLoad) with
              ⟨_, _, _, _, _, _, _, _, _, _, _, hRate⟩
            exact WaveInfo.exists_seconds hRate
  · rw [if_neg hWave] at hSeconds
    cases hSeconds

/-
  A narration leaves the length of a graph as it is and is
  bound to the length of the film.
-/
theorem Film.bind_of_bindAudio
    {tree : FileTree}
    {audio : Option String}
    {total : Float}
    {graph bound : RenderGraph}
    (hNone : graph.audio = none)
    (hBind : bindAudio tree audio total graph = .ok bound) :
    bound.totalDuration = graph.totalDuration ∧
      bound.audio.map AudioTrack.path = audio ∧
      ∀ track, bound.audio = some track →
        ∃ path, AudioTrack.bind tree path total =
          .ok track := by
  cases audio with
  | none =>
      cases hBind
      rw [hNone]
      refine ⟨rfl, rfl, ?_⟩
      intro track hTrack
      cases hTrack
  | some path =>
      rcases Outcome.map_eq_ok_iff.mp hBind with
        ⟨track, hTrack, rfl⟩
      have hPath := (AudioTrack.bind_eq_ok_iff.mp hTrack).2
      refine ⟨rfl, congrArg some (by rw [hPath]), ?_⟩
      rintro _ ⟨⟩
      exact ⟨path, hTrack⟩

------------------------------------------------------------
-- Timelines
------------------------------------------------------------

theorem Config.overlap_of_validate
    {config : Config}
    (hValid : config.validate = .ok ()) :
    0 < config.overlap ∧ config.overlap.isFinite = true := by
  unfold validate at hValid
  rcases Outcome.bind_eq_ok_iff.mp hValid with ⟨_, _, hRest⟩
  have hOverlap := (Outcome.guard_eq_ok_iff.mp hRest).1
  simp only [Bool.or_eq_true, Bool.not_eq_true',
    decide_eq_true_eq, not_or, Bool.not_eq_false] at hOverlap
  rcases hOverlap with ⟨hFinite, hPositive⟩
  exact ⟨Binary.lt_of_not_le rfl hFinite hPositive, hFinite⟩

namespace Timeline

variable {σ : Type}
variable [WordSource σ]
variable {shots : List Shot}
variable {config : Config}
variable {timeline : Timeline}
variable {s s' : σ}

/- The length of a timeline is a sum of its durations. -/
theorem totalDuration_of_build
    (hPositive :
      ∀ shot ∈ shots, ¬ shot.baseDuration ≤ 0.0)
    (hBuild : build shots config s = .ok (timeline, s')) :
    timeline.totalDuration =
      (timeline.clips.map Clip.baseDuration).foldl
          (· + ·) 0 +
        config.overlap := by
  rcases realizes_of_build hPositive hBuild with
    ⟨working, _, hRealizes⟩
  rcases build_eq_ok_iff.mp hBuild with
    ⟨hShots, _, _, clips, _, _, _, _, _, rfl⟩
  have hLength : clips.length = shots.length :=
    hRealizes.length_clips
  rcases List.exists_cons_of_ne_nil hShots with
    ⟨shot, rest, rfl⟩
  apply Schedule.total_eq_foldl
  · intro d hFirst
    rw [List.head?_map, Option.mem_map] at hFirst
    rcases hFirst with ⟨clip, hClip, rfl⟩
    rw [List.head?_eq_getElem?] at hClip
    have hRealized :=
      hRealizes.clip_realizes 0 shot clip rfl hClip
    exact Binary.zero_add_of_pos hRealized.baseDuration_pos
  · intro hNone
    rw [List.map_eq_nil_iff] at hNone
    rw [hNone] at hLength
    cases hLength

/- It is never nothing. -/
theorem totalDuration_pos_of_build
    (hPositive :
      ∀ shot ∈ shots, ¬ shot.baseDuration ≤ 0.0)
    (hBuild : build shots config s = .ok (timeline, s')) :
    0 < timeline.totalDuration := by
  have hTotal := totalDuration_of_build hPositive hBuild
  rcases build_eq_ok_iff.mp hBuild with
    ⟨hShots, hValid, _, _, _, _, _, hClips, _, hSame⟩
  have hDurations :
      ∀ shot ∈ shots,
        0 < shot.baseDuration ∧
          shot.baseDuration.isFinite = true := by
    intro shot hShot
    have hFinite := isFinite_of_build hBuild hShot
    exact ⟨Binary.lt_of_not_le rfl hFinite
      (hPositive shot hShot), hFinite⟩
  rcases List.exists_cons_of_ne_nil hShots with
    ⟨shot, rest, rfl⟩
  rcases List.forall_mem_cons.mp hDurations with
    ⟨⟨hFirst, -⟩, hRest⟩
  have hClipped :
      timeline.clips.map Clip.baseDuration =
        shot.baseDuration ::
          rest.map Shot.baseDuration := by
    rw [hSame]
    exact baseDurations_of_clipsFrom hClips
  rcases Config.overlap_of_validate hValid with
    ⟨hOverlap, hFinite⟩
  rcases Binary.exists_exactValue?_iff.mpr hFinite with
    ⟨w, hValue⟩
  rw [Binary.lt_iff Binary.exactValue?_zero hValue]
    at hOverlap
  rw [hTotal, hClipped, List.foldl_cons,
    Binary.zero_add_of_pos hFirst]
  exact Binary.add_pos_of_pos
    (Schedule.foldl_pos hFirst (by simpa using hRest))
    hValue hOverlap

/-
  With two clips and more it is the end of the last clip
  after the last transition.
-/
theorem exists_last_of_build
    (hPositive :
      ∀ shot ∈ shots, ¬ shot.baseDuration ≤ 0.0)
    (hBuild : build shots config s = .ok (timeline, s'))
    (hCount : 2 ≤ timeline.clips.length) :
    ∃ t clip,
      timeline.transitions.getLast? = some t ∧
        timeline.clips.getLast? = some clip ∧
        timeline.totalDuration =
          t.offset + clip.baseDuration + config.overlap := by
  have hTotal := totalDuration_of_build hPositive hBuild
  rcases build_eq_ok_iff.mp hBuild with
    ⟨_, _, _, clips, _, transitions, _, _, hPlaced, rfl⟩
  rcases Schedule.last_of_transitions hPlaced
      (by rw [List.length_map]; exact hCount) with
    ⟨t, d, hTransition, hLast, hSum⟩
  rw [List.getLast?_map, Option.map_eq_some_iff] at hLast
  rcases hLast with ⟨clip, hClip, rfl⟩
  refine ⟨t, clip, hTransition, hClip, ?_⟩
  rw [hTotal, hSum]

end Timeline

------------------------------------------------------------
-- Films
------------------------------------------------------------

namespace Film

/-
  A film has a length: its timeline, its graph and its
  description tell it, the narration is fitted to it, and
  the renderer cuts the result there.  It is the sum of all
  durations, from the left, and one overlap, which is also
  where the last clip ends after the last transition.
-/
structure LastsFor
    (film : Film)
    (audio : Option String)
    (config : Config)
    (total : Float) : Prop where
  timeline_eq : film.timeline.totalDuration = total
  graph_eq : film.graph.totalDuration = total
  description_eq :
    ∃ fields,
      film.description = .record fields ∧
        fields.lookup "total_duration" = some (.real total)
  audio_eq : film.graph.audio.map AudioTrack.path = audio
  fit_eq :
    ∀ track, film.graph.audio = some track →
      track.fit = .classify track.duration total
  cut :
    ∀ output,
      ["-t", secondsText total, output] <:+
        (film.command config output).args
  sum_eq :
    total =
      (film.timeline.clips.map Clip.baseDuration).foldl
          (· + ·) 0 +
        config.overlap
  last_eq :
    2 ≤ film.timeline.clips.length →
      ∃ t clip,
        film.timeline.transitions.getLast? = some t ∧
          film.timeline.clips.getLast? = some clip ∧
          total =
            t.offset + clip.baseDuration + config.overlap

variable {σ : Type}
variable [WordSource σ]
variable [PictureReader]
variable {scenario : Scenario}
variable {tree : FileTree}
variable {limit : Option Nat}
variable {audio : Option String}
variable {config : Config}
variable {film : Film}
variable {s s' : σ}

/- A film lasts as long as its timeline says. -/
theorem lastsFor_of_compile
    (hCompile :
      compile scenario tree limit audio config s =
        .ok (film, s')) :
    film.LastsFor audio config
      film.timeline.totalDuration := by
  rcases compile_eq_ok_iff.mp hCompile with
    ⟨_, hResolve, hBuild, graph, hGraph, hBound, _⟩
  rcases (Timeline.assemble_eq_ok_iff _ _).mp hGraph with
    ⟨_, working, _, rfl, _⟩
  rcases bind_of_bindAudio rfl hBound with
    ⟨hTotal, hAudio, hTracks⟩
  have hPositive :
      ∀ shot ∈ film.shots.shots,
        ¬ shot.baseDuration ≤ 0.0 := by
    intro shot hShot
    exact Scenario.not_le_zero_of_resolve hResolve hShot
  have hGraphTotal :
      film.graph.totalDuration =
        film.timeline.totalDuration :=
    hTotal
  exact {
    timeline_eq := rfl
    graph_eq := hGraphTotal
    description_eq := by
      refine ⟨_, rfl, ?_⟩
      rw [← hGraphTotal]
      rfl
    audio_eq := hAudio
    fit_eq := by
      intro track hTrack
      rcases hTracks track hTrack with ⟨path, hBind⟩
      exact AudioTrack.fit_of_bind hBind
    cut := by
      intro output
      rw [← hGraphTotal]
      exact List.suffix_append _ _
    sum_eq := Timeline.totalDuration_of_build hPositive hBuild
    last_eq := Timeline.exists_last_of_build hPositive hBuild }

/-
  The verdict on the narration of a film says how its exact
  length compares with that of the film, unless the length
  of the narration is unknown.
-/
theorem fit_tells_of_compile
    (hCompile :
      compile scenario tree limit audio config s =
        .ok (film, s'))
    {track : AudioTrack}
    (hTrack : film.graph.audio = some track)
    {total : ℚ}
    (hTotal :
      Binary.exactValue? film.timeline.totalDuration =
        some total) :
    (track.fit = .unknown ↔ track.duration = none) ∧
      ∀ seconds, track.duration = some seconds →
        ∃ t, Binary.exactValue? seconds = some t ∧
          track.fit.Tells t total := by
  rcases compile_eq_ok_iff.mp hCompile with
    ⟨_, hResolve, hBuild, graph, hGraph, hBound, _⟩
  rcases (Timeline.assemble_eq_ok_iff _ _).mp hGraph with
    ⟨_, _, _, rfl, _⟩
  rcases (bind_of_bindAudio rfl hBound).2.2 track hTrack with
    ⟨path, hBind⟩
  have hPositive :
      0 < film.timeline.totalDuration :=
    Timeline.totalDuration_pos_of_build
      (fun _ hShot =>
        Scenario.not_le_zero_of_resolve hResolve hShot)
      hBuild
  rw [Binary.lt_iff Binary.exactValue?_zero hTotal]
    at hPositive
  rw [AudioTrack.fit_of_bind hBind]
  refine ⟨AudioFit.classify_eq_unknown_iff, ?_⟩
  intro seconds hSeconds
  rcases AudioTrack.exists_duration_of_bind hBind hSeconds
    with ⟨t, hValue, hNonneg⟩
  rw [hSeconds]
  exact ⟨t, hValue, AudioFit.classify_tells hValue hTotal
    hNonneg hPositive.le⟩

end Film

/- Two images and a narration without any samples. -/
def FileTree.narrated : FileTree :=
  FileTree.gapped.insert ["film", "voice.wav"]
    (.file (Wave.header 8 0) 0)

/- The pictures are PNG files in what follows. -/
attribute [local instance] Png.reader

/- A film of two clips, a transition and a narration. -/
theorem Film.lastsFor_of_compile_narrated :
    ∃ film s',
      compile Scenario.gapped FileTree.narrated none
            (some "film/voice.wav") Config.coarse
            (WordScript.ofList [7]) =
          .ok (film, s') ∧
        film.LastsFor (some "film/voice.wav") Config.coarse
          film.timeline.totalDuration := by
  have hOk :
      (compile Scenario.gapped FileTree.narrated none
        (some "film/voice.wav") Config.coarse
        (WordScript.ofList [7])).isOk = true := by
    decide +kernel
  rcases Outcome.exists_eq_ok_of_isOk hOk with
    ⟨⟨film, s'⟩, hCompile⟩
  exact ⟨film, s', hCompile, lastsFor_of_compile hCompile⟩

end Slideshow

import Mathlib.Algebra.Order.BigOperators.Group.List
import Slideshow.Proofs.Audio.Wave
import Slideshow.Proofs.FileTree.Path
import Slideshow.Proofs.Numeral
import Slideshow.Proofs.Outcome
import Slideshow.Proofs.Render.Write
import Slideshow.Speech.Track

/-
  This file proves how the files of a narration belong
  together: the file of the whole holds what the files of
  the parts hold, and all of them are there once they were
  written.

  The fields of a header hold every part of what they hold
  as a whole, so there are parts if there is the whole.  All
  files have names of their own, since they end differently
  behind the same voice.  So none is written over another,
  whatever the voice and however many parts there are.

  Key definitions include:
    * `SpeechTrack.IsJoined`
    * `SpeechTrack.IsStored`

  Main results include:
    * `SpeechTrack.exists_parts_isJoined`
    * `SpeechTrack.nodup_fileNames`
    * `SpeechTrack.areWritten_of_run_writeTo`
    * `SpeechTrack.wave_isJoined_and_isStored`
-/

namespace Slideshow

namespace SpeechTrack

variable {track : SpeechTrack}
variable {before after : FileTree}

------------------------------------------------------------
-- Contents
------------------------------------------------------------

/-
  Parts are joined to a whole: there is a part for each
  chunk with its samples, and the whole has the samples of
  all parts in order, under a header that gives their size.
-/
structure IsJoined
    (track : SpeechTrack)
    (parts : List Bytes)
    (wave : Bytes) : Prop where
  length_eq : parts.length = track.chunks.length
  payloads_eq :
    parts.map (·.drop 44) = track.chunks.map (·.samples)
  parts_hold :
    List.Forall₂
      (fun chunk part =>
        Wave.Holds chunk.samples track.sampleRate part)
      track.chunks parts
  payload_eq :
    wave.drop 44 = (parts.map (·.drop 44)).flatten
  wave_holds :
    Wave.Holds (parts.map (·.drop 44)).flatten
      track.sampleRate wave

theorem length_le_flatMap
    {chunk : SpeechChunk}
    (hChunk : chunk ∈ track.chunks) :
    chunk.samples.length ≤
      (track.chunks.flatMap (·.samples)).length := by
  rw [List.length_flatMap]
  exact List.single_le_sum (fun _ _ => Nat.zero_le _) _
    (List.mem_map_of_mem hChunk)

/- If there is the whole, there are parts that it joins. -/
theorem exists_parts_isJoined
    {wave : Bytes}
    (hWave : track.wave = .ok wave) :
    ∃ parts, track.parts = .ok parts ∧
      track.IsJoined parts wave := by
  have hFits := (Wave.ofSamples_eq_ok_iff.mp hWave).1
  have hParts : ∃ parts, track.parts = .ok parts := by
    apply Outcome.exists_mapM_eq_ok_iff.mpr
    intro chunk hChunk
    have hLength := (length_le_flatMap hChunk).trans
      hFits.length_le
    exact ⟨_, Wave.ofSamples_eq_ok_iff.mpr
      ⟨⟨hLength, hFits.rate_le⟩, rfl⟩⟩
  rcases hParts with ⟨parts, hParts⟩
  have hEach := Outcome.mapM_eq_ok_iff.mp hParts
  have hHolds :
      List.Forall₂
        (fun chunk part =>
          Wave.Holds chunk.samples track.sampleRate part)
        track.chunks parts :=
    hEach.imp fun _ _ => Wave.holds_of_ofSamples
  have hPayloads :
      parts.map (·.drop 44) =
        track.chunks.map (·.samples) := by
    rw [← List.forall₂_eq_eq_eq, List.forall₂_map_left_iff,
      List.forall₂_map_right_iff]
    exact (hHolds.imp fun _ _ hHold =>
      hHold.samples_eq).flip
  have hWhole := Wave.holds_of_ofSamples hWave
  rw [List.flatMap_def, ← hPayloads] at hWhole
  refine ⟨parts, hParts, ?_⟩
  exact
    { length_eq := hEach.length_eq.symm
      payloads_eq := hPayloads
      parts_hold := hHolds
      payload_eq := hWhole.samples_eq
      wave_holds := hWhole }

------------------------------------------------------------
-- File Names
------------------------------------------------------------

/- What follows the voice in the name of a part. -/
def partEnding (n : Nat) : String :=
  "_part_" ++ Numeral.write n ++ ".wav"

/- What follows the voice in the name of the whole. -/
def fullEnding : String :=
  "_full.wav"

theorem partEnding_injective :
    Function.Injective partEnding := by
  intro m n hEq
  rw [partEnding, partEnding, String.append_left_inj,
    String.append_right_inj] at hEq
  exact Numeral.write_injective hEq

theorem partEnding_ne_fullEnding (n : Nat) :
    partEnding n ≠ fullEnding := by
  intro hEq
  have hChars := congrArg String.toList hEq
  simp [partEnding, fullEnding] at hChars

theorem not_mem_partEnding (n : Nat) :
    '/' ∉ (partEnding n).toList := by
  have hDigits : '/' ∉ Nat.toDigits 10 n := by
    intro hSlash
    have hDigit := Nat.isDigit_of_mem_toDigits (by omega)
      (by omega) hSlash
    simp at hDigit
  simp [partEnding, Numeral.write, hDigits]

theorem partPath_eq
    (track : SpeechTrack)
    (directory : String)
    (n : Nat) :
    track.partPath directory n =
      Path.join directory track.voice ++ partEnding n := by
  rw [← Path.join_append _ _ _ (by simp [partEnding]),
    partPath, partEnding, String.append_assoc,
    String.append_assoc, String.append_assoc]

theorem fullPath_eq
    (track : SpeechTrack)
    (directory : String) :
    track.fullPath directory =
      Path.join directory track.voice ++ fullEnding := by
  rw [← Path.join_append _ _ _ (by simp [fullEnding]),
    fullPath, fullEnding]

/- The paths of so many parts and of the whole. -/
def paths
    (track : SpeechTrack)
    (directory : String)
    (count : Nat) : List String :=
  (List.range' 1 count).map (track.partPath directory) ++
    [track.fullPath directory]

/- All files of a narration have different names. -/
theorem nodup_fileNames
    (track : SpeechTrack)
    (directory : String)
    (count : Nat) :
    ((track.paths directory count).map
      Path.fileName?).Nodup := by
  rcases Path.exists_fileName?_append
    (Path.join directory track.voice) with ⟨last, hName⟩
  have hPart :
      ∀ n, Path.fileName? (track.partPath directory n) =
        some (last ++ partEnding n) := by
    intro n
    rw [partPath_eq]
    apply hName _ (not_mem_partEnding n)
    simp [partEnding]
  have hFull :
      Path.fileName? (track.fullPath directory) =
        some (last ++ fullEnding) := by
    rw [fullPath_eq]
    exact hName _ (by decide) (by decide)
  have hInjective :
      Function.Injective
        (Path.fileName? ∘ track.partPath directory) := by
    intro m n hEq
    rw [Function.comp_apply, Function.comp_apply, hPart,
      hPart, Option.some.injEq,
      String.append_right_inj] at hEq
    exact partEnding_injective hEq
  rw [paths, List.map_append, List.map_map,
    List.map_singleton, ← List.concat_eq_append,
    List.nodup_concat]
  refine ⟨?_, (List.nodup_range' 1).map hInjective⟩
  rw [List.mem_map]
  rintro ⟨n, -, hEq⟩
  rw [Function.comp_apply, hPart, hFull, Option.some.injEq,
    String.append_right_inj] at hEq
  exact partEnding_ne_fullEnding n hEq

------------------------------------------------------------
-- Files
------------------------------------------------------------

section Written

variable [TempNaming]

/- The parts are written one after the other. -/
theorem areWritten_of_run_writeParts
    {directory : String}
    {n : Nat}
    {parts : List Bytes}
    {paths : List String}
    (hRun : (track.writeParts directory n parts).run
      before = (.ok paths, after)) :
    paths = (List.range' n parts.length).map
        (track.partPath directory) ∧
      Temp.AreWritten (paths.zip parts) before after := by
  induction parts generalizing n before paths with
  | nil =>
      cases hRun
      exact ⟨rfl, .nil⟩
  | cons part parts ih =>
      rw [writeParts, FileM.run_bind_eq_ok_iff] at hRun
      rcases hRun with ⟨_, middle, hWrite, hRun⟩
      rw [FileM.run_bind_eq_ok_iff] at hRun
      rcases hRun with ⟨rest, last, hRest, hRun⟩
      cases hRun
      rcases ih hRest with ⟨hPaths, hWritten⟩
      rcases Temp.isWritten_of_run_write hWrite with
        ⟨place, hFirst⟩
      refine ⟨?_, .cons hFirst hWritten⟩
      rw [List.length_cons, List.range'_succ, List.map_cons,
        hPaths]

/- The whole is written behind its parts. -/
theorem areWritten_of_run_writeTo
    {directory : String}
    {paths : List String}
    (hRun : (track.writeTo directory).run before =
      (.ok paths, after)) :
    ∃ parts wave,
      track.parts = .ok parts ∧ track.wave = .ok wave ∧
        paths = track.paths directory parts.length ∧
        Temp.AreWritten (paths.zip (parts ++ [wave]))
          before after := by
  rw [writeTo, FileM.run_bind_eq_ok_iff] at hRun
  rcases hRun with ⟨parts, _, hParts, hRun⟩
  rw [FileM.run_ofExcept, Prod.mk.injEq] at hParts
  rcases hParts with ⟨hParts, rfl⟩
  rw [FileM.run_bind_eq_ok_iff] at hRun
  rcases hRun with ⟨front, middle, hFront, hRun⟩
  rw [FileM.run_bind_eq_ok_iff] at hRun
  rcases hRun with ⟨wave, _, hWave, hRun⟩
  rw [FileM.run_ofExcept, Prod.mk.injEq] at hWave
  rcases hWave with ⟨hWave, rfl⟩
  rw [FileM.run_bind_eq_ok_iff] at hRun
  rcases hRun with ⟨_, last, hFull, hRun⟩
  cases hRun
  rcases areWritten_of_run_writeParts hFront with
    ⟨hPaths, hWritten⟩
  rcases Temp.isWritten_of_run_write hFull with
    ⟨place, hLast⟩
  have hLength : front.length = parts.length := by
    rw [hPaths, List.length_map, List.length_range']
  refine ⟨parts, wave,
    Outcome.mapError_eq_ok_iff.mp hParts,
    Outcome.mapError_eq_ok_iff.mp hWave, ?_, ?_⟩
  · rw [paths, hPaths]
  · rw [List.zip_append hLength]
    exact hWritten.append (.cons hLast .nil)

end Written

/-
  The files of a narration are stored: each part and the
  whole can be read under a path of its own.  All else is as
  it was, but for new directories.
-/
structure IsStored
    (track : SpeechTrack)
    (directory : String)
    (parts : List Bytes)
    (wave : Bytes)
    (before after : FileTree)
    (paths : List String) : Prop where
  paths_eq :
    paths =
      (List.range' 1 track.chunks.length).map
          (track.partPath directory) ++
        [track.fullPath directory]
  length_eq : paths.length = track.chunks.length + 1
  nodup : paths.Nodup
  read_eq :
    List.Forall₂
      (fun path file => after.read path = .ok file)
      paths (parts ++ [wave])
  rest :
    ∀ place,
      (∀ path ∈ paths, after.find path ≠ .ok place) →
      after.node? place = before.node? place ∨
        (before.node? place = none ∧
          after.node? place = some .directory)

/- Files that were written one by one are stored. -/
theorem isStored_of_areWritten
    {directory : String}
    {parts : List Bytes}
    {wave : Bytes}
    (hCount : parts.length = track.chunks.length)
    (hWritten :
      Temp.AreWritten
        ((track.paths directory parts.length).zip
          (parts ++ [wave])) before after) :
    track.IsStored directory parts wave before after
      (track.paths directory parts.length) := by
  have hNames :=
    track.nodup_fileNames directory parts.length
  have hLength :
      (track.paths directory parts.length).length =
        parts.length + 1 := by
    simp [paths]
  have hPaths : track.paths directory parts.length =
      (List.range' 1 track.chunks.length).map
          (track.partPath directory) ++
        [track.fullPath directory] := by
    rw [paths, hCount]
  generalize track.paths directory parts.length = paths
    at hWritten hNames hLength hPaths ⊢
  have hBoth : paths.length = (parts ++ [wave]).length := by
    rw [hLength, List.length_append, List.length_singleton]
  have hZip :
      ((paths.zip (parts ++ [wave])).map fun file =>
        Path.fileName? file.1) =
          paths.map Path.fileName? := by
    have hFirsts := List.map_fst_zip hBoth.le
    conv =>
      rhs
      rw [← hFirsts, List.map_map]
    rfl
  have hDistinct := hNames
  rw [← hZip] at hDistinct
  exact
    { paths_eq := hPaths
      length_eq := by rw [hLength, hCount]
      nodup := hNames.of_map _
      read_eq := by
        rw [List.forall₂_iff_zip]
        refine ⟨hBoth, ?_⟩
        intro path file hFile
        have hRead := hWritten.read_eq hDistinct hFile
        exact hRead
      rest := by
        intro place hOther
        apply hWritten.rest
        intro file hFile
        exact hOther file.1 (List.of_mem_zip hFile).1 }

/-
  If a narration makes a whole, it makes parts that are
  joined to it.  If it is written into a directory, its
  parts and the whole are stored there.
-/
theorem wave_isJoined_and_isStored
    [TempNaming]
    (track : SpeechTrack) :
    (∀ wave, track.wave = .ok wave →
      ∃ parts, track.parts = .ok parts ∧
        track.IsJoined parts wave) ∧
    ∀ directory before paths after,
      (track.writeTo directory).run before =
        (.ok paths, after) →
      ∃ parts wave,
        track.parts = .ok parts ∧ track.wave = .ok wave ∧
          track.IsJoined parts wave ∧
          track.IsStored directory parts wave before after
            paths := by
  refine ⟨fun _ hWave => exists_parts_isJoined hWave, ?_⟩
  intro directory before paths after hRun
  rcases areWritten_of_run_writeTo hRun with
    ⟨parts, wave, hParts, hWave, rfl, hWritten⟩
  rcases exists_parts_isJoined hWave with
    ⟨others, hOthers, hJoined⟩
  have hSame : others = parts :=
    Except.ok.inj (hOthers.symm.trans hParts)
  subst hSame
  exact ⟨others, wave, hParts, hWave, hJoined,
    isStored_of_areWritten hJoined.length_eq hWritten⟩

/- A narration of two chunks. -/
def inTwoChunks : SpeechTrack where
  voice := "anna"
  sampleRate := 24000
  chunks := [⟨"One.", [1, 0]⟩, ⟨"Two.", [2, 0, 3, 0]⟩]

/- A tree in which there is a file already. -/
def notedTree : FileTree :=
  FileTree.empty.insert ["notes"] (.file [7] 0)

section Examples

/- Temporary files are numbered in what follows. -/
attribute [local instance] Temp.numbered

/- Two parts and the whole are stored beside another file. -/
theorem wave_isJoined_and_isStored_inTwoChunks :
    ∃ parts wave paths after,
      inTwoChunks.parts = .ok parts ∧
        inTwoChunks.wave = .ok wave ∧
        inTwoChunks.IsJoined parts wave ∧
        (inTwoChunks.writeTo "speech").run notedTree =
          (.ok paths, after) ∧
        inTwoChunks.IsStored "speech" parts wave notedTree
          after paths := by
  have hOk :
      ((inTwoChunks.writeTo "speech").run
        notedTree).1.isOk = true := by
    decide +kernel
  rcases hRun :
    (inTwoChunks.writeTo "speech").run notedTree with
    ⟨result, after⟩
  rw [hRun] at hOk
  rcases Outcome.exists_eq_ok_of_isOk hOk with
    ⟨paths, rfl⟩
  rcases wave_isJoined_and_isStored inTwoChunks with
    ⟨hJoined, hStored⟩
  rcases hStored "speech" notedTree paths after hRun with
    ⟨parts, wave, hParts, hWave, -, hFiles⟩
  rcases hJoined wave hWave with
    ⟨others, hOthers, hPayloads⟩
  have hSame : others = parts :=
    Except.ok.inj (hOthers.symm.trans hParts)
  rw [hSame] at hPayloads
  exact ⟨parts, wave, paths, after, hParts, hWave,
    hPayloads, rfl, hFiles⟩

end Examples

end SpeechTrack

end Slideshow

import Slideshow.Proofs.Outcome
import Slideshow.Proofs.Speech.Chunk
import Slideshow.Speech.Track

/-
  This file proves which calls a synthesizer gets for a
  narration, and how the narration follows from its replies.

  A synthesizer is any function with a state of its own.
  Its calls are written down in a log (`Synthesizer.logged`),
  so that it can be said how often it is called, with what,
  and what it replied.  A log tells how the calls for some
  texts went (`SpeechCall.Tells`): one call a text, up to the
  first failure.  All else is read off such a log.

  Key definitions include:
    * `SpeechCall`
    * `SpeechCall.Gives`
    * `SpeechCall.Fails`
    * `SpeechCall.Tells`
    * `Synthesizer.logged`
    * `SpeechTrack.chunksOf`
    * `SpeechTrack.IsAccountedBy`

  Main results include:
    * `SpeechTrack.speak_logged`
    * `SpeechTrack.speakAll_logged`
    * `SpeechTrack.synthesize_isAccountedBy`
-/

namespace Slideshow

------------------------------------------------------------
-- Calls of a Synthesizer
------------------------------------------------------------

/- One call: the text, the voice, and the reply. -/
structure SpeechCall where
  text : String
  voice : String
  reply : Except Error Bytes

/- A synthesizer that writes down its calls. -/
def Synthesizer.logged
    {σ : Type}
    (synthesizer : Synthesizer σ) :
    Synthesizer (σ × List SpeechCall) :=
  fun text voice s =>
    let (reply, after) := synthesizer text voice s.1
    (reply, (after, s.2 ++ [⟨text, voice, reply⟩]))

namespace SpeechCall

/- The reply holds samples. -/
def IsSpoken (call : SpeechCall) : Prop :=
  ∃ samples, samples ≠ [] ∧ call.reply = .ok samples

/- The reply makes a chunk of the text. -/
def Gives
    (call : SpeechCall)
    (chunk : SpeechChunk) : Prop :=
  chunk.text = call.text ∧ chunk.samples ≠ [] ∧
    call.reply = .ok chunk.samples

/-
  The reply is an error, or no error but empty, which is an
  error of its own.
-/
def Fails
    (call : SpeechCall)
    (e : Error) : Prop :=
  call.reply = .error e ∨
    call.reply = .ok [] ∧ e = .generation .emptyResponse

theorem Gives.isSpoken
    {call : SpeechCall}
    {chunk : SpeechChunk}
    (hGives : call.Gives chunk) :
    call.IsSpoken :=
  ⟨chunk.samples, hGives.2⟩

theorem forall_isSpoken_of_gives
    {calls : List SpeechCall}
    {chunks : List SpeechChunk}
    (hGives : List.Forall₂ Gives calls chunks) :
    ∀ call ∈ calls, call.IsSpoken := by
  induction hGives with
  | nil => simp
  | cons hFirst hRest ih =>
      rw [List.forall_mem_cons]
      exact ⟨hFirst.isSpoken, ih⟩

/- A call that fails is not spoken. -/
theorem Fails.not_isSpoken
    {call : SpeechCall}
    {e : Error}
    (hFails : call.Fails e) :
    ¬ call.IsSpoken := by
  rintro ⟨samples, hSome, hReply⟩
  rcases hFails with hError | ⟨hNone, _⟩
  · rw [hReply] at hError
    cases hError
  · rw [hReply] at hNone
    exact hSome (Except.ok.inj hNone)

/- The call gives a chunk, or fails with an error. -/
inductive EndsIn (call : SpeechCall) :
    Except Error SpeechChunk → Prop where
| chunk
    {chunk : SpeechChunk}
    (hGives : call.Gives chunk) :
    EndsIn call (.ok chunk)
| failure
    {e : Error}
    (hFails : call.Fails e) :
    EndsIn call (.error e)

/-
  Calls tell how the texts went in a voice: each of them was
  called in order and gave a chunk, up to the first one that
  failed.
-/
inductive Tells (voice : String) :
    List SpeechCall → List String →
      Except Error (List SpeechChunk) → Prop where
| done : Tells voice [] [] (.ok [])
| fail
    {call : SpeechCall}
    {e : Error}
    (texts : List String)
    (hVoice : call.voice = voice)
    (hFails : call.Fails e) :
    Tells voice [call] (call.text :: texts) (.error e)
| give
    {call : SpeechCall}
    {chunk : SpeechChunk}
    {calls : List SpeechCall}
    {texts : List String}
    {result : Except Error (List SpeechChunk)}
    (hVoice : call.voice = voice)
    (hGives : call.Gives chunk)
    (hRest : Tells voice calls texts result) :
    Tells voice (call :: calls) (call.text :: texts)
      (result.map (chunk :: ·))

namespace Tells

variable {voice : String}
variable {calls : List SpeechCall}
variable {texts : List String}
variable {result : Except Error (List SpeechChunk)}

theorem texts_prefix
    (hTells : Tells voice calls texts result) :
    calls.map SpeechCall.text <+: texts := by
  induction hTells with
  | done => exact List.prefix_rfl
  | fail texts hVoice hFails =>
      exact List.prefix_append [_] texts
  | give hVoice hGives hRest ih =>
      rw [List.map_cons, List.prefix_cons_inj]
      exact ih

/- All calls ask for the voice. -/
theorem voice_eq
    (hTells : Tells voice calls texts result) :
    ∀ call ∈ calls, call.voice = voice := by
  induction hTells with
  | done => simp
  | fail texts hVoice hFails =>
      intro call hCall
      rw [List.mem_singleton.mp hCall]
      exact hVoice
  | give hVoice hGives hRest ih =>
      rw [List.forall_mem_cons]
      exact ⟨hVoice, ih⟩

/- If there are chunks, each text gave its own in order. -/
theorem forall₂_of_ok
    {chunks : List SpeechChunk}
    (hTells : Tells voice calls texts (.ok chunks)) :
    calls.map SpeechCall.text = texts ∧
      List.Forall₂ Gives calls chunks := by
  generalize hResult :
      (Except.ok chunks : Except Error _) = result
    at hTells
  induction hTells generalizing chunks with
  | done =>
      cases hResult
      exact ⟨rfl, .nil⟩
  | fail texts hVoice hFails => cases hResult
  | give hVoice hGives hRest ih =>
      rcases Outcome.map_eq_ok_iff.mp hResult.symm with
        ⟨rest, rfl, rfl⟩
      rcases ih rfl with ⟨hTexts, hChunks⟩
      rw [List.map_cons, hTexts]
      exact ⟨rfl, .cons hGives hChunks⟩

/- If there is an error, the last call failed with it. -/
theorem exists_last_of_error
    {e : Error}
    (hTells : Tells voice calls texts (.error e)) :
    ∃ before last,
      calls = before ++ [last] ∧
        (∀ call ∈ before, call.IsSpoken) ∧
        last.Fails e := by
  generalize hResult :
      (Except.error e : Except _ (List SpeechChunk)) =
        result
    at hTells
  induction hTells with
  | done => cases hResult
  | @fail call _ texts hVoice hFails =>
      cases hResult
      exact ⟨[], call, rfl, by simp, hFails⟩
  | @give call _ _ _ _ hVoice hGives hRest ih =>
      rcases ih
          (Outcome.map_eq_error_iff.mp hResult.symm).symm with
        ⟨before, last, rfl, hBefore, hLast⟩
      refine ⟨call :: before, last, rfl, ?_, hLast⟩
      rw [List.forall_mem_cons]
      exact ⟨hGives.isSpoken, hBefore⟩

/- There are chunks exactly if all calls were spoken. -/
theorem exists_ok_iff
    (hTells : Tells voice calls texts result) :
    (∃ chunks, result = .ok chunks) ↔
      ∀ call ∈ calls, call.IsSpoken := by
  constructor
  · rintro ⟨chunks, rfl⟩
    exact forall_isSpoken_of_gives hTells.forall₂_of_ok.2
  · intro hSpoken
    cases result with
    | ok chunks => exact ⟨chunks, rfl⟩
    | error e =>
        rcases hTells.exists_last_of_error with
          ⟨before, last, rfl, _, hLast⟩
        exact absurd (hSpoken last (by simp))
          hLast.not_isSpoken

end Tells

end SpeechCall

namespace SpeechTrack

variable {σ : Type}

------------------------------------------------------------
-- Runs
------------------------------------------------------------

/-
  Writing down the call for one text changes neither the
  reply nor the state.  It is one call, with the text and
  the voice, and it ends as the text does.
-/
theorem speak_logged
    (synthesizer : Synthesizer σ)
    (voice text : String)
    (s : σ)
    (log : List SpeechCall) :
    ∃ call result after,
      speak synthesizer voice text s = (result, after) ∧
        speak synthesizer.logged voice text (s, log) =
          (result, (after, log ++ [call])) ∧
        call.text = text ∧ call.voice = voice ∧
        call.EndsIn result := by
  rcases hReply : synthesizer text voice s with
    ⟨reply, after⟩
  have hLogged :
      synthesizer.logged text voice (s, log) =
        (reply, (after, log ++ [⟨text, voice, reply⟩])) := by
    simp only [Synthesizer.logged, hReply]
  simp only [speak, hReply, hLogged]
  cases reply with
  | error e =>
      exact ⟨_, _, _, rfl, rfl, rfl, rfl,
        .failure (Or.inl rfl)⟩
  | ok samples =>
      cases samples with
      | nil =>
          exact ⟨_, _, _, rfl, rfl, rfl, rfl,
            .failure (Or.inr ⟨rfl, rfl⟩)⟩
      | cons sample rest =>
          exact ⟨_, _, _, rfl, rfl, rfl, rfl,
            .chunk ⟨rfl, List.cons_ne_nil _ _, rfl⟩⟩

/- The calls for texts tell how the texts went. -/
theorem speakAll_logged
    (synthesizer : Synthesizer σ)
    (voice : String)
    (texts : List String)
    (s : σ)
    (log : List SpeechCall) :
    ∃ calls result after,
      speakAll synthesizer voice s texts =
          (result, after) ∧
        speakAll synthesizer.logged voice (s, log) texts =
          (result, (after, log ++ calls)) ∧
        SpeechCall.Tells voice calls texts result := by
  induction texts generalizing s log with
  | nil =>
      refine ⟨[], .ok [], s, rfl, ?_, .done⟩
      rw [List.append_nil]
      rfl
  | cons text texts ih =>
      rcases speak_logged synthesizer voice text s log with
        ⟨call, result, after, hSpeak, hLogged, rfl, hVoice,
          hEnd⟩
      simp only [speakAll, hSpeak, hLogged]
      cases hEnd with
      | @failure e hFails =>
          exact ⟨[call], .error e, after, rfl, rfl,
            .fail texts hVoice hFails⟩
      | @chunk chunk hGives =>
          rcases ih after (log ++ [call]) with
            ⟨calls, rest, last, hRest, hRestLogged,
              hTells⟩
          have hAll :
              SpeechCall.Tells voice (call :: calls)
                (call.text :: texts)
                (rest.map (chunk :: ·)) :=
            .give hVoice hGives hTells
          simp only [hRest, hRestLogged, List.append_assoc,
            List.singleton_append]
          refine ⟨call :: calls, _, last, ?_, ?_, hAll⟩
          · cases rest <;> rfl
          · cases rest <;> rfl

------------------------------------------------------------
-- Accounts
------------------------------------------------------------

/- The chunks of a text under the settings. -/
def chunksOf
    (config : SpeechConfig)
    (text : String) : Except Panic (List String) :=
  speechChunks config.chunkWords config.chunkTolerance text

theorem not_large_of_chunksOf
    {config : SpeechConfig}
    {text : String}
    {chunks : List String}
    (hChunks : chunksOf config text = .ok chunks) :
    ¬ 2 ^ 64 ≤
      config.chunkWords.toNat +
        config.chunkTolerance.toNat :=
  not_le.mpr (speechChunks_eq_ok_iff.mp hChunks).1

/-
  The calls account for the outcome of a narration.

  They are for the first chunks of the text in order, in the
  voice of the settings.  There are none if the settings are
  refused or the text is blank, which is the error then.
  There is a track exactly if the settings hold, there are
  chunks and all calls were spoken; it has all the chunks,
  each with the reply to its own call.  Otherwise the last
  call is the first one that was not spoken, and its failure
  is the error.

  All this is as long as the bounds of the chunks fit into
  words.  If they do not, there is a panic in place of any
  call, even for a blank text.
-/
structure IsAccountedBy
    (text : String)
    (config : SpeechConfig)
    (outcome : Except Panic (Except Error SpeechTrack))
    (calls : List SpeechCall) : Prop where
  texts_prefix :
    calls = [] ∨
      ∃ chunks, chunksOf config text = .ok chunks ∧
        calls.map SpeechCall.text <+: chunks
  voice_eq : ∀ call ∈ calls, call.voice = config.voice
  refused :
    ∀ fault, config.validate = .error fault →
      calls = [] ∧
        outcome =
          .ok (.error (.validation (.setting fault)))
  panicked :
    ∀ panic, outcome = .error panic → calls = []
  panic_iff :
    outcome = .error .addOverflow ↔
      config.validate = .ok () ∧
        2 ^ 64 ≤
          config.chunkWords.toNat +
            config.chunkTolerance.toNat
  blank :
    config.validate = .ok () →
      config.chunkWords.toNat +
          config.chunkTolerance.toNat < 2 ^ 64 →
      (∀ c ∈ text.toList, isBlank c = true) →
      calls = [] ∧
        outcome = .ok (.error (.validation .noSpeechText))
  exists_ok_iff :
    (∃ track, outcome = .ok (.ok track)) ↔
      config.validate = .ok () ∧
        ∃ chunks, chunksOf config text = .ok chunks ∧
          chunks ≠ [] ∧ ∀ call ∈ calls, call.IsSpoken
  track :
    ∀ track, outcome = .ok (.ok track) →
      track.voice = config.voice ∧
        track.sampleRate = config.sampleRate ∧
        chunksOf config text =
          .ok (calls.map SpeechCall.text) ∧
        List.Forall₂ SpeechCall.Gives calls track.chunks
  failed :
    ∀ e, outcome = .ok (.error e) →
      config.validate = .ok () →
      ∀ chunks, chunksOf config text = .ok chunks →
        chunks ≠ [] →
        ∃ before last,
          calls = before ++ [last] ∧
            (∀ call ∈ before, call.IsSpoken) ∧
            last.Fails e

/- Refused settings are accounted for by no call. -/
theorem isAccountedBy_of_refused
    (text : String)
    {config : SpeechConfig}
    {fault : SettingFault}
    (hFault : config.validate = .error fault) :
    IsAccountedBy text config
      (.ok (.error (.ofSetting fault))) [] where
  texts_prefix := Or.inl rfl
  voice_eq := by simp
  refused := by
    intro other hOther
    rw [hFault] at hOther
    cases hOther
    exact ⟨rfl, rfl⟩
  panicked := by simp
  panic_iff := by simp [hFault]
  blank := by simp [hFault]
  exists_ok_iff := by simp [hFault]
  track := by simp
  failed := by simp [hFault]

/- Bounds that are too large are no call, but a panic. -/
theorem isAccountedBy_of_panic
    (text : String)
    {config : SpeechConfig}
    (hValid : config.validate = .ok ())
    (hLarge :
      2 ^ 64 ≤
        config.chunkWords.toNat +
          config.chunkTolerance.toNat) :
    IsAccountedBy text config (.error .addOverflow)
      [] where
  texts_prefix := Or.inl rfl
  voice_eq := by simp
  refused := by simp [hValid]
  panicked := fun _ _ => rfl
  panic_iff := ⟨fun _ => ⟨hValid, hLarge⟩, fun _ => rfl⟩
  blank := by
    intro _ hFits
    exact absurd hLarge (not_le.mpr hFits)
  exists_ok_iff := by
    simp [chunksOf, speechChunks_eq_error text hLarge]
  track := by simp
  failed := by simp

/- A blank text is accounted for by no call. -/
theorem isAccountedBy_of_blank
    {text : String}
    {config : SpeechConfig}
    (hValid : config.validate = .ok ())
    (hBlank : chunksOf config text = .ok []) :
    IsAccountedBy text config
      (.ok (.error (.validation .noSpeechText))) [] where
  texts_prefix := Or.inl rfl
  voice_eq := by simp
  refused := by simp [hValid]
  panicked := by simp
  panic_iff :=
    ⟨nofun, fun hPanic =>
      absurd hPanic.2 (not_large_of_chunksOf hBlank)⟩
  blank := by simp
  exists_ok_iff := by simp [hBlank]
  track := by simp
  failed := by simp [hBlank]

/- The chunks of a text are accounted for by their calls. -/
theorem isAccountedBy_of_tells
    {text : String}
    {config : SpeechConfig}
    {chunks : List String}
    {calls : List SpeechCall}
    {result : Except Error (List SpeechChunk)}
    (hValid : config.validate = .ok ())
    (hChunks : chunksOf config text = .ok chunks)
    (hSome : chunks ≠ [])
    (hTells :
      SpeechCall.Tells config.voice calls chunks result) :
    IsAccountedBy text config
      (.ok (result.map fun chunks =>
        ⟨config.voice, config.sampleRate, chunks⟩))
      calls where
  texts_prefix :=
    Or.inr ⟨chunks, hChunks, hTells.texts_prefix⟩
  voice_eq := hTells.voice_eq
  refused := by simp [hValid]
  panicked := by simp
  panic_iff :=
    ⟨nofun, fun hPanic =>
      absurd hPanic.2 (not_large_of_chunksOf hChunks)⟩
  blank := by
    intro _ _ hBlank
    have hSame := (speechChunks_eq_ok_iff.mp hChunks).2
    rw [hSame, ne_eq, chunksWithin_eq_nil_iff] at hSome
    exact absurd hBlank hSome
  exists_ok_iff := by
    simp only [hChunks, Except.ok.injEq, exists_eq_left']
    rw [← hTells.exists_ok_iff]
    constructor
    · rintro ⟨track, hTrack⟩
      rcases Outcome.map_eq_ok_iff.mp hTrack with
        ⟨spoken, hSpoken, _⟩
      exact ⟨hValid, hSome, spoken, hSpoken⟩
    · rintro ⟨_, _, spoken, rfl⟩
      exact ⟨_, rfl⟩
  track := by
    intro track hTrack
    rcases Outcome.map_eq_ok_iff.mp
        (Except.ok.inj hTrack) with
      ⟨spoken, rfl, rfl⟩
    rcases hTells.forall₂_of_ok with ⟨hTexts, hGives⟩
    exact ⟨rfl, rfl, by rw [hChunks, hTexts], hGives⟩
  failed := by
    intro e hError _ _ _ _
    rcases Outcome.map_eq_error_iff.mp
      (Except.ok.inj hError) with rfl
    exact hTells.exists_last_of_error

/-
  Whatever the synthesizer does, its calls for a narration
  account for the outcome, and writing them down changes
  neither the outcome nor the state.
-/
theorem synthesize_isAccountedBy
    (synthesizer : Synthesizer σ)
    (text : String)
    (config : SpeechConfig)
    (s : σ) :
    ∃ calls outcome after,
      synthesize synthesizer text config s =
          (outcome, after) ∧
        synthesize synthesizer.logged text config (s, []) =
          (outcome, (after, calls)) ∧
        IsAccountedBy text config outcome calls := by
  cases hValid : config.validate with
  | error fault =>
      refine ⟨[], _, s, ?_, ?_,
        isAccountedBy_of_refused text hValid⟩
      · simp only [synthesize, hValid]
      · simp only [synthesize, hValid]
  | ok =>
      cases hChunks : chunksOf config text with
      | error panic =>
          have hLarge :
              2 ^ 64 ≤
                config.chunkWords.toNat +
                  config.chunkTolerance.toNat := by
            by_contra hFits
            rw [chunksOf, speechChunks_eq_ok_iff.mpr
              ⟨not_le.mp hFits, rfl⟩] at hChunks
            cases hChunks
          have hPanic := speechChunks_eq_error text hLarge
          refine ⟨[], _, s, ?_, ?_,
            isAccountedBy_of_panic text hValid hLarge⟩
          · simp only [synthesize, hValid, hPanic]
          · simp only [synthesize, hValid, hPanic]
      | ok chunks =>
          cases chunks with
          | nil =>
              refine ⟨[], _, s, ?_, ?_,
                isAccountedBy_of_blank hValid hChunks⟩
              · rw [chunksOf] at hChunks
                simp only [synthesize, hValid, hChunks]
              · rw [chunksOf] at hChunks
                simp only [synthesize, hValid, hChunks]
          | cons chunk chunks =>
              rcases speakAll_logged synthesizer config.voice
                  (chunk :: chunks) s [] with
                ⟨calls, result, after, hRun, hLogged,
                  hTells⟩
              refine ⟨calls, _, after, ?_, ?_,
                isAccountedBy_of_tells hValid hChunks
                  (List.cons_ne_nil _ _) hTells⟩
              · rw [chunksOf] at hChunks
                simp only [synthesize, hValid, hChunks, hRun]
              · rw [chunksOf] at hChunks
                simp only [synthesize, hValid, hChunks,
                  hLogged, List.nil_append]

end SpeechTrack

/- Settings with the greatest target that there is. -/
def SpeechConfig.greatest : SpeechConfig where
  chunkWords := 18446744073709551615
  chunkTolerance := 1
  sampleRate := 24000
  voice := "Algenib"

/-
  A blank text is a panic under settings that can be used,
  in place of an error.
-/
theorem SpeechTrack.synthesize_panics :
    SpeechConfig.greatest.validate = .ok () ∧
      (∀ c ∈ "".toList, isBlank c = true) ∧
      ∀ (synthesizer : Synthesizer Unit),
        synthesize synthesizer "" SpeechConfig.greatest () =
          (.error .addOverflow, ()) := by
  refine ⟨by decide, by simp, ?_⟩
  intro synthesizer
  rfl

end Slideshow

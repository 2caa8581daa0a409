import Slideshow.Config.Decode
import Slideshow.Config.Encode
import Slideshow.Proofs.Json.Decoder
import Slideshow.Proofs.Outcome

/-
  This file proves what is read of written settings: those
  that were written, and the standard ones in the place of
  those that were left out.

  Each kind of setting is read from whatever its document is
  written as, so the settings as a whole are read by finding
  their fields one by one.

  Key definitions include:
    * `Config.withChosen`
    * `Config.IsHeldIn`

  Main results include:
    * `Config.failsAs_validate`
    * `TransitionPolicy.reads_document`
    * `EncoderSettings.reads_document`
    * `Config.ofValue?_eq_withChosen`
    * `Config.isHeldIn_indented`
    * `Config.read_eq_withChosen`
    * `Config.read_indented`
-/

namespace Slideshow

open Json Outcome

------------------------------------------------------------
-- Checks
------------------------------------------------------------

namespace Config

/- Sizes and rates that fail their checks cannot be used. -/
theorem failsAs_validateFrames (config : Config) :
    FailsAs (·.kind = .validation)
      config.validateFrames := by
  unfold validateFrames
  refine FailsAs.bind (failsAs_mapError fun _ => rfl)
    fun _ => ?_
  refine FailsAs.bind (failsAs_mapError fun _ => rfl)
    fun _ => ?_
  refine FailsAs.guard rfl (FailsAs.guard rfl ?_)
  exact FailsAs.bind (failsAs_mapError fun _ => rfl)
    fun _ => failsAs_ok ()

/- Settings that fail their checks cannot be used. -/
theorem failsAs_validate (config : Config) :
    FailsAs (·.kind = .validation) config.validate := by
  unfold validate
  refine config.failsAs_validateFrames.bind fun _ => ?_
  refine FailsAs.guard rfl ?_
  refine FailsAs.bind (failsAs_mapError fun _ => rfl)
    fun _ => ?_
  refine FailsAs.bind (failsAs_mapError fun _ => rfl)
    fun _ => ?_
  refine FailsAs.bind (failsAs_mapError fun _ => rfl)
    fun _ => ?_
  by_cases hEffects : config.effects.isEmpty = true
  · rw [if_pos hEffects]
    exact failsAs_error rfl
  · rw [if_neg hEffects]
    exact failsAs_ok ()

end Config

------------------------------------------------------------
-- Kinds of Settings
------------------------------------------------------------

/- A written frame rate is read. -/
theorem FrameRate.reads_document (rate : FrameRate) :
    Decoder.Reads FrameRate.decode? rate.document rate := by
  intro v hWritten
  rcases hWritten.exists_parts? ["num", "den"] rfl
      (by decide) with
    ⟨_, hParts, _ | ⟨hNum, _ | ⟨hDen, _ | _⟩⟩⟩
  simp [FrameRate.decode?, hParts,
    hNum.required_eq (Decoder.reads_word32 _),
    hDen.required_eq (Decoder.reads_word32 _)]

/- A written frame size is read. -/
theorem FrameSize.reads_document (size : FrameSize) :
    Decoder.Reads FrameSize.decode? size.document size := by
  intro v hWritten
  rcases hWritten.exists_parts? ["width", "height"] rfl
      (by decide) with
    ⟨_, hParts, _ | ⟨hWidth, _ | ⟨hHeight, _ | _⟩⟩⟩
  simp [FrameSize.decode?, hParts,
    hWidth.required_eq (Decoder.reads_word32 _),
    hHeight.required_eq (Decoder.reads_word32 _)]

/- Written zoom bounds are read. -/
theorem ZoomBounds.reads_document
    {bounds : ZoomBounds Float}
    (hReals : ∀ x ∈ bounds.document.reals, IsReadBack x) :
    Decoder.Reads ZoomBounds.decode? bounds.document
      bounds := by
  intro v hWritten
  simp only [document, Document.reals, Document.fieldReals,
    List.append_nil, List.singleton_append,
    List.forall_mem_cons] at hReals
  rcases hReals with ⟨hMinBack, hMaxBack, -⟩
  rcases hWritten.exists_parts? ["min", "max"] rfl
      (by decide) with
    ⟨_, hParts, _ | ⟨hMin, _ | ⟨hMax, _ | _⟩⟩⟩
  simp [ZoomBounds.decode?, hParts,
    hMin.required_eq (Decoder.reads_float hMinBack),
    hMax.required_eq (Decoder.reads_float hMaxBack)]

/- Written blur levels are read. -/
theorem BlurLevels.reads_document
    {levels : BlurLevels Float}
    (hReals : ∀ x ∈ levels.document.reals, IsReadBack x) :
    Decoder.Reads BlurLevels.decode? levels.document
      levels := by
  intro v hWritten
  simp only [document, Document.reals, Document.fieldReals,
    List.append_nil, List.singleton_append,
    List.forall_mem_cons] at hReals
  rcases hReals with ⟨hLowBack, hMidBack, hHighBack, -⟩
  rcases hWritten.exists_parts? ["low", "mid", "high"] rfl
      (by decide) with
    ⟨_, hParts,
      _ | ⟨hLow, _ | ⟨hMid, _ | ⟨hHigh, _ | _⟩⟩⟩⟩
  simp [BlurLevels.decode?, hParts,
    hLow.required_eq (Decoder.reads_float hLowBack),
    hMid.required_eq (Decoder.reads_float hMidBack),
    hHigh.required_eq (Decoder.reads_float hHighBack)]

/- Written encoder settings are read. -/
theorem EncoderSettings.reads_document
    (encoder : EncoderSettings) :
    Decoder.Reads EncoderSettings.decode? encoder.document
      encoder := by
  intro v hWritten
  rcases hWritten.exists_parts?
      ["video_codec", "preset", "crf", "pix_fmt",
        "audio_codec"] rfl (by decide) with
    ⟨_, hParts, _ | ⟨hVideo, _ | ⟨hPreset, _ | ⟨hCrf,
      _ | ⟨hPixel, _ | ⟨hAudio, _ | _⟩⟩⟩⟩⟩⟩
  simp [EncoderSettings.decode?, hParts,
    hVideo.orElse_eq (Decoder.reads_text _),
    hPreset.orElse_eq (Decoder.reads_text _),
    hCrf.orElse_eq (Decoder.reads_word8 _),
    hPixel.orElse_eq (Decoder.reads_text _),
    hAudio.orElse_eq (Decoder.reads_text _)]

------------------------------------------------------------
-- Transition Policies
------------------------------------------------------------

theorem TransitionStyle.ofName?_name
    (style : TransitionStyle) :
    ofName? style.name = some style := by
  cases style <;> decide

theorem MotionEffect.ofName?_name (effect : MotionEffect) :
    ofName? effect.name = some effect := by
  cases effect <;> decide

namespace TransitionPolicy

theorem reads_style? (style : TransitionStyle) :
    Decoder.Reads style? (.text style.name) style := by
  intro v hWritten
  have hUnit :=
    Decoder.reads_unit? style.ofName?_name v hWritten
  cases hWritten
  exact hUnit

/- A policy nests no deeper than its styles. -/
theorem isSound_document (policy : TransitionPolicy) :
    Document.IsSound nestingLimit policy.document := by
  cases policy with
  | blurDissolve =>
      refine Document.isSound_record ?_
      simp [Document.isSound_text]
  | random styles =>
      refine Document.isSound_record ?_
      simp only [List.forall_mem_cons, List.not_mem_nil,
        false_implies, implies_true, and_true]
      refine ⟨Document.isSound_text _ _,
        Document.isSound_list ?_⟩
      intro item hItem
      rcases List.mem_map.mp hItem with ⟨style, _, rfl⟩
      exact Document.isSound_text _ _

/- A written policy is read. -/
theorem reads_document (policy : TransitionPolicy) :
    Decoder.Reads decode? policy.document policy := by
  intro v hWritten
  have hSound := policy.isSound_document v hWritten
  cases policy with
  | blurDissolve =>
      rcases hWritten.holdsFields with ⟨written, rfl, hHolds⟩
      rcases hHolds.exists_value (by simp)
          List.mem_cons_self (by simp) with
        ⟨kind, hKind, hText⟩
      have hRead := Decoder.reads_text _ kind hText
      simp [decode?, hSound, hKind, hRead, ofKind?]
  | random styles =>
      rcases hWritten.holdsFields with ⟨written, rfl, hHolds⟩
      rcases hHolds.exists_value (by simp)
          List.mem_cons_self (by simp) with
        ⟨kind, hKind, hText⟩
      rcases hHolds.exists_value (by simp)
          (List.mem_cons_of_mem _ List.mem_cons_self)
          (by simp) with
        ⟨list, hStyles, hList⟩
      have hRead := Decoder.reads_text _ kind hText
      have hAll :=
        Decoder.reads_list reads_style? styles list hList
      simp [decode?, hSound, hKind, hRead, hStyles, hAll,
        ofKind?]

end TransitionPolicy

------------------------------------------------------------
-- All Settings
------------------------------------------------------------

namespace Config

/- The standard settings, with chosen ones of others. -/
def withChosen
    (config : Config)
    (chosen : List String) : Config where
  rate :=
    if "fps" ∈ chosen then config.rate
    else standard.rate
  size :=
    if "resolution" ∈ chosen then config.size
    else standard.size
  supersample :=
    if "supersample" ∈ chosen then config.supersample
    else standard.supersample
  overlap :=
    if "overlap_secs" ∈ chosen then config.overlap
    else standard.overlap
  zoom :=
    if "zoom" ∈ chosen then config.zoom
    else standard.zoom
  blur :=
    if "blur" ∈ chosen then config.blur
    else standard.blur
  transitions :=
    if "transitions" ∈ chosen then config.transitions
    else standard.transitions
  effects :=
    if "effects" ∈ chosen then config.effects
    else standard.effects
  encoder :=
    if "encoder" ∈ chosen then config.encoder
    else standard.encoder

theorem withChosen_eq_self
    {config : Config}
    {chosen : List String}
    (hAll : keys ⊆ chosen) :
    config.withChosen chosen = config := by
  simp only [keys, List.cons_subset] at hAll
  simp [withChosen, hAll]

/- The doubles in settings are those in their parts. -/
theorem isReadBack_of_reals
    {config : Config}
    (hReals : ∀ x ∈ config.document.reals, IsReadBack x) :
    IsReadBack config.overlap ∧
      (∀ x ∈ config.zoom.document.reals, IsReadBack x) ∧
        ∀ x ∈ config.blur.document.reals,
          IsReadBack x := by
  simp only [document, Document.reals, Document.fieldReals,
    List.forall_mem_append, List.forall_mem_singleton]
    at hReals
  exact ⟨hReals.2.2.2.1, hReals.2.2.2.2.1,
    hReals.2.2.2.2.2.1⟩

/- Chosen settings are read, and the others are standard. -/
theorem ofValue?_eq_withChosen
    {config : Config}
    {chosen : List String}
    {written : List (Text × Value)}
    (hReals : ∀ x ∈ config.document.reals, IsReadBack x)
    (hHolds :
      HoldsFields config.document.fields chosen written) :
    ofValue? (.record written) =
      some (config.withChosen chosen) := by
  have hKeys : keys.Nodup := by
    decide
  rcases isReadBack_of_reals hReals with
    ⟨hOverlapBack, hZoomBack, hBlurBack⟩
  rcases hHolds.exists_parts? hKeys with
    ⟨_, hParts, _ | ⟨hRate, _ | ⟨hSize, _ | ⟨hSuper,
      _ | ⟨hOverlap, _ | ⟨hZoom, _ | ⟨hBlur,
        _ | ⟨hTransitions, _ | ⟨hEffects,
          _ | ⟨hEncoder, _ | _⟩⟩⟩⟩⟩⟩⟩⟩⟩⟩
  have hFound : Decoder.parts? keys (.record written) = _ :=
    hParts
  have hMoves :=
    Decoder.reads_list
      (fun effect =>
        Decoder.reads_unit? (MotionEffect.ofName?_name effect))
      config.effects
  simp [ofValue?, hFound, withChosen,
    hRate.orElse_eq config.rate.reads_document,
    hSize.orElse_eq config.size.reads_document,
    hSuper.orElse_eq (Decoder.reads_word32 _),
    hOverlap.orElse_eq (Decoder.reads_float hOverlapBack),
    hZoom.orElse_eq (ZoomBounds.reads_document hZoomBack),
    hBlur.orElse_eq (BlurLevels.reads_document hBlurBack),
    hTransitions.orElse_eq
      config.transitions.reads_document,
    hEffects.orElse_eq hMoves,
    hEncoder.orElse_eq config.encoder.reads_document]

------------------------------------------------------------
-- Texts of Settings
------------------------------------------------------------

/-
  A text holds chosen settings: their fields are laid out in
  it in any order, perhaps among others with keys that no
  setting has.
-/
def IsHeldIn
    (config : Config)
    (chosen : List String)
    (text : String) : Prop :=
  ∃ written,
    HoldsFields config.document.fields chosen written ∧
      IsLaidOut (Value.record written).tokens text.toList

/- The indented text of such fields is one that holds them. -/
theorem isHeldIn_indented
    {config : Config}
    {chosen : List String}
    {order extra : List (String × Document)}
    (hOrder :
      order.Perm
        ((config.document.fields.filter fun field =>
          field.1 ∈ chosen) ++ extra))
    (hFresh : ∀ field ∈ extra, field.1 ∉ keys)
    (hReals :
      ∀ x ∈ (Document.record order).reals, IsReadBack x) :
    config.IsHeldIn chosen
      (Document.record order).indented := by
  rcases Document.exists_isLaidOut_indented hReals with
    ⟨v, hWritten, hText⟩
  rcases hWritten.holdsFields_of_perm hOrder hFresh with
    ⟨written, rfl, hHolds⟩
  exact ⟨written, hHolds, hText⟩

theorem decode_eq_withChosen
    {config : Config}
    {chosen : List String}
    {text : String}
    (hReals : ∀ x ∈ config.document.reals, IsReadBack x)
    (hHeld : config.IsHeldIn chosen text) :
    decode text = .ok (config.withChosen chosen) := by
  rcases hHeld with ⟨written, hHolds, hText⟩
  rw [decode, read?_of_isLaidOut hText, Option.bind_some,
    ofValue?_eq_withChosen hReals hHolds]

/- What was decoded is read if it passes its checks. -/
theorem read_of_decode
    {config : Config}
    {text : String}
    (hDecode : decode text = .ok config) :
    read text = config.validate.map fun _ => config := by
  unfold read
  rw [hDecode]
  change (do config.validate; return config) = _
  cases config.validate with
  | error e =>
      rfl
  | ok =>
      rfl

/-
  A text that holds chosen fields of usable settings is read
  as the standard settings with the chosen ones in place.
  If these cannot be used together, that is the error.  With
  all fields chosen, the settings themselves are read.  Such
  a text is the indented one of the chosen fields, in any
  order and with others among them.
-/
theorem read_eq_withChosen
    {config : Config}
    (hValid : config.validate = .ok ())
    (hReals : ∀ x ∈ config.document.reals, IsReadBack x)
    (chosen : List String) :
    (∀ text, config.IsHeldIn chosen text →
      ((config.withChosen chosen).validate = .ok () →
          read text = .ok (config.withChosen chosen)) ∧
        (∀ e,
          (config.withChosen chosen).validate = .error e →
            read text = .error e ∧ e.kind = .validation) ∧
          (keys ⊆ chosen → read text = .ok config)) ∧
    ∀ order extra : List (String × Document),
      order.Perm
          ((config.document.fields.filter fun field =>
            field.1 ∈ chosen) ++ extra) →
        (∀ field ∈ extra, field.1 ∉ keys) →
          (∀ x ∈ (Document.record order).reals,
            IsReadBack x) →
            config.IsHeldIn chosen
              (Document.record order).indented := by
  refine ⟨fun text hHeld => ?_, fun _ _ =>
    isHeldIn_indented⟩
  have hRead :=
    read_of_decode (decode_eq_withChosen hReals hHeld)
  refine ⟨?_, ?_, ?_⟩
  · intro hUsable
    rw [hRead, hUsable]
    rfl
  · intro e hError
    refine ⟨?_, failsAs_validate _ e hError⟩
    rw [hRead, hError]
    rfl
  · intro hAll
    rw [hRead, withChosen_eq_self hAll, hValid]
    rfl

/- Settings with a codec that needs escapes. -/
def escaped : Config :=
  { standard with
    size := ⟨2, 2⟩
    supersample := 4000000
    overlap := 0.75
    transitions := .random [.slideLeft, .fade]
    encoder :=
      { EncoderSettings.standard with
        videoCodec := "a \"b\"\n\\" } }

/- Three of them behind a note, in another order. -/
def escapedPart : List (String × Document) := [
  ("note", .list [.null, .natural 7]),
  ("encoder", escaped.encoder.document),
  ("transitions", escaped.transitions.document),
  ("overlap_secs", .real escaped.overlap)]

/-
  They replace the standard ones.  The great factor alone
  does not go with the standard size.
-/
theorem read_eq_withChosen_escaped :
    read (Document.record escapedPart).indented =
        .ok
          { escaped with
            size := standard.size
            supersample := standard.supersample } ∧
      ∃ e,
        read (Document.record [("supersample",
            .natural escaped.supersample.toNat)]).indented =
          .error e ∧
        e.kind = .validation := by
  have hReals :
      ∀ x ∈ escaped.document.reals, IsReadBack x := by
    decide +kernel
  have hOk : escaped.validate.isOk = true := by
    decide +kernel
  rcases exists_eq_ok_of_isOk hOk with ⟨_, hValid⟩
  constructor
  · have hChosen :
        (escaped.withChosen ["overlap_secs", "transitions",
          "encoder"]).validate.isOk = true := by
      decide +kernel
    rcases exists_eq_ok_of_isOk hChosen with ⟨_, hUsable⟩
    have hAll := read_eq_withChosen hValid hReals
      ["overlap_secs", "transitions", "encoder"]
    have hHeld := hAll.2 escapedPart
      [("note", .list [.null, .natural 7])]
      (List.reverse_perm _).symm (by decide)
      (by decide +kernel)
    exact (hAll.1 _ hHeld).1 hUsable
  · have hChosen :
        (escaped.withChosen
          ["supersample"]).validate.isOk = false := by
      decide +kernel
    have hAll :=
      read_eq_withChosen hValid hReals ["supersample"]
    have hHeld := hAll.2
      [("supersample",
        .natural escaped.supersample.toNat)] []
      (.refl _) (by simp)
      (by simp [Document.reals, Document.fieldReals])
    cases hResult :
      (escaped.withChosen ["supersample"]).validate with
    | error e =>
        exact ⟨e, (hAll.1 _ hHeld).2.1 e hResult⟩
    | ok =>
        rw [hResult] at hChosen
        cases hChosen

/- Written settings are read from their indented text. -/
theorem read_indented
    {config : Config}
    (hValid : config.validate = .ok ())
    (hReals : ∀ x ∈ config.document.reals, IsReadBack x) :
    read config.document.indented = .ok config := by
  have hOrder :
      config.document.fields.Perm
        ((config.document.fields.filter fun field =>
          field.1 ∈ keys) ++ []) := by
    rw [List.append_nil]
    exact .refl _
  have hHeld : config.IsHeldIn keys config.document.indented :=
    isHeldIn_indented hOrder (by simp) hReals
  rw [read_of_decode (decode_eq_withChosen hReals hHeld),
    withChosen_eq_self (List.Subset.refl keys), hValid]
  rfl

end Config

end Slideshow

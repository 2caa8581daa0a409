import Mathlib.Algebra.Group.Nat.Defs
import Mathlib.Data.Nat.Basic
import Slideshow.Command
import Slideshow.Graph.Fingerprint
import Slideshow.Proofs.Text.Utf8

/-
  This file proves that graphs with the same identity are
  rendered by the same commands, so that only a collision of
  the hash can give two commands one fingerprint.

  The identity is read from the left.  A text ends at the
  first byte of all ones, which no text contains
  (`Hash.textBytes_append_inj`).  What could be mistaken is
  how many input paths there are: the eight bytes of the
  length may hold a byte of all ones.  But the filter text
  of a graph with nodes has at least eight bytes, so it
  reaches beyond the length, and a narration has no such
  byte within it (`Hash.wordBytes_append_ne`).  The sign of
  the length does not matter.

  Key definitions include:
    * `Hash.IsCollision`
    * `Hash.pathBytes`
    * `RenderGraph.Agrees`

  Main results include:
    * `Hash.wordBytes_injective`
    * `RenderGraph.eight_le_length_filterText`
    * `RenderGraph.agrees_of_identity_eq`
    * `RenderGraph.command_eq_of_identity_eq`
-/

namespace Slideshow

------------------------------------------------------------
-- Reading an Identity
------------------------------------------------------------

namespace Hash

/- Different bytes with the same hash. -/
def IsCollision (first second : Bytes) : Prop :=
  first ≠ second ∧ ofBytes first = ofBytes second

/- The bytes of a path, if there is one. -/
def pathBytes : Option String → Bytes
  | some path => textBytes path
  | none => []

/- A text in front of other bytes can be read. -/
theorem textBytes_append_inj
    {s t : String}
    {xs ys : Bytes}
    (hEq : textBytes s ++ xs = textBytes t ++ ys) :
    s = t ∧ xs = ys := by
  have hRead (r : String) (zs : Bytes) :
      (textBytes r ++ zs).takeWhile (· != 0xFF) =
        Utf8.encode r := by
    rw [textBytes, List.append_assoc,
      List.takeWhile_append_of_pos]
    · rw [List.singleton_append,
        List.takeWhile_cons_of_neg (by decide),
        List.append_nil]
    · intro b hb
      have hNot : b ≠ 0xFF := by
        rintro rfl
        exact Utf8.not_mem_encode r hb
      exact bne_iff_ne.mpr hNot
  have hText : s = t := by
    apply Utf8.encode_injective
    rw [← hRead s xs, ← hRead t ys, hEq]
  subst hText
  exact ⟨rfl, List.append_cancel_left hEq⟩

theorem length_wordBytes (word : UInt64) :
    (wordBytes word).length = 8 := by
  simp [wordBytes]

/- A byte of a word is a digit of its value. -/
theorem getElem?_wordBytes
    {i : Nat}
    (word : UInt64)
    (hLt : i < 8) :
    ((wordBytes word)[i]?).map UInt8.toNat =
      some (word.toNat / 2 ^ (8 * i) % 2 ^ 8) := by
  have hShift : (8 * i) % 2 ^ 64 % 64 = 8 * i := by
    omega
  rw [wordBytes, List.getElem?_map, List.getElem?_range hLt,
    Option.map_some, Option.map_some, UInt64.toNat_toUInt8,
    UInt64.toNat_shiftRight, Nat.shiftRight_eq_div_pow]
  show some (word.toNat / 2 ^ ((8 * i) % 2 ^ 64 % 64) %
    2 ^ 8) = _
  rw [hShift]

/- A word can be told from its bytes. -/
theorem wordBytes_injective :
    Function.Injective wordBytes := by
  intro v w hEq
  have hDigits (k : Nat) (hLe : k ≤ 8) :
      v.toNat % 2 ^ (8 * k) = w.toNat % 2 ^ (8 * k) := by
    induction k with
    | zero =>
        rw [Nat.mul_zero, Nat.pow_zero, Nat.mod_one,
          Nat.mod_one]
    | succ k ih =>
        have hDigit := getElem?_wordBytes v hLe
        rw [hEq, getElem?_wordBytes w hLe,
          Option.some.injEq] at hDigit
        rw [Nat.mul_succ, Nat.pow_add, Nat.mod_mul, Nat.mod_mul,
          ih (Nat.le_of_succ_le hLe), hDigit]
  have hAll := hDigits 8 (Nat.le_refl 8)
  rw [Nat.mod_eq_of_lt v.toNat_lt,
    Nat.mod_eq_of_lt w.toNat_lt] at hAll
  exact UInt64.toNat.inj hAll

section Identities

variable {texts texts' : List String}
variable {t t' : String}
variable {word word' : UInt64}
variable {path path' : Option String}

/-
  A word and a path are never more texts, a long text, and a
  word and a path.  The byte behind the long text would have
  to lie within the path.
-/
theorem wordBytes_append_ne
    (hLong : 8 ≤ (Utf8.encode t).length) :
    wordBytes word ++ pathBytes path ≠
      texts.flatMap textBytes ++
        (textBytes t ++
          (wordBytes word' ++ pathBytes path')) := by
  intro hEq
  have hBehind :
      pathBytes path =
        (texts.flatMap textBytes ++ Utf8.encode t).drop 8 ++
          0xFF :: (wordBytes word' ++ pathBytes path') := by
    have hDrop := congrArg (List.drop 8) hEq
    rw [List.drop_left' (length_wordBytes word), textBytes,
      List.append_assoc, ← List.append_assoc,
      List.drop_append_of_le_length
        (by rw [List.length_append]; omega)] at hDrop
    exact hDrop
  cases path with
  | none =>
      exact List.append_ne_nil_of_right_ne_nil _
        (List.cons_ne_nil _ _) hBehind.symm
  | some a =>
      have hSome :
          wordBytes word' ++ pathBytes path' ≠ [] := by
        apply List.append_ne_nil_of_left_ne_nil
        rw [← List.length_pos_iff, length_wordBytes]
        omega
      have hWithin := congrArg List.dropLast hBehind
      rw [pathBytes, textBytes, List.dropLast_concat,
        List.dropLast_append_of_ne_nil
          (List.cons_ne_nil _ _),
        List.dropLast_cons_of_ne_nil hSome] at hWithin
      apply Utf8.not_mem_encode a
      rw [hWithin]
      exact List.mem_append_right _ List.mem_cons_self

/-
  Texts, a long text, a word and a path can be told from
  their bytes in a row.
-/
theorem textBytes_flatMap_inj
    (hLong : 8 ≤ (Utf8.encode t).length)
    (hLong' : 8 ≤ (Utf8.encode t').length)
    (hEq :
      texts.flatMap textBytes ++
          (textBytes t ++
            (wordBytes word ++ pathBytes path)) =
        texts'.flatMap textBytes ++
          (textBytes t' ++
            (wordBytes word' ++ pathBytes path'))) :
    texts = texts' ∧ t = t' ∧ word = word' ∧
      pathBytes path = pathBytes path' := by
  induction texts generalizing texts' with
  | nil =>
      cases texts' with
      | nil =>
          rcases textBytes_append_inj hEq with ⟨hText, hRest⟩
          rcases List.append_inj hRest
            (by rw [length_wordBytes, length_wordBytes]) with
            ⟨hWord, hPath⟩
          exact ⟨rfl, hText, wordBytes_injective hWord,
            hPath⟩
      | cons s' texts' =>
          rw [List.flatMap_nil, List.nil_append,
            List.flatMap_cons, List.append_assoc] at hEq
          exact absurd (textBytes_append_inj hEq).2
            (wordBytes_append_ne hLong')
  | cons s texts ih =>
      cases texts' with
      | nil =>
          rw [List.flatMap_nil, List.nil_append,
            List.flatMap_cons, List.append_assoc] at hEq
          exact absurd (textBytes_append_inj hEq).2.symm
            (wordBytes_append_ne hLong)
      | cons s' texts' =>
          rw [List.flatMap_cons, List.flatMap_cons,
            List.append_assoc, List.append_assoc] at hEq
          rcases textBytes_append_inj hEq with ⟨rfl, hRest⟩
          rcases ih hRest with ⟨rfl, hText, hWord, hPath⟩
          exact ⟨rfl, hText, hWord, hPath⟩

/- A path can be told from its bytes. -/
theorem pathBytes_injective :
    Function.Injective pathBytes := by
  intro p q hEq
  have hSome (s : String) : pathBytes (some s) ≠ [] :=
    List.append_ne_nil_of_right_ne_nil _
      (List.cons_ne_nil _ _)
  cases p with
  | none =>
      cases q with
      | none => rfl
      | some t => exact absurd hEq.symm (hSome t)
  | some s =>
      cases q with
      | none => exact absurd hEq (hSome s)
      | some t =>
          have hTexts :
              textBytes s ++ [] = textBytes t ++ [] :=
            congrArg (· ++ []) hEq
          rw [(textBytes_append_inj hTexts).1]

end Identities

end Hash

------------------------------------------------------------
-- Long Filter Texts
------------------------------------------------------------

/- A text is long enough if its first part is. -/
theorem Text.le_length_append
    {n : Nat}
    {s : String}
    (t : String)
    (hLe : n ≤ s.length) :
    n ≤ (s ++ t).length := by
  rw [String.length_append]
  omega

/- Joined texts are as long as the first one at least. -/
theorem Text.length_le_length_join
    (sep first : String)
    (rest : List String) :
    first.length ≤ (Text.join sep (first :: rest)).length := by
  rw [Text.join, ← String.length_toList,
    ← String.length_toList, String.toList_intercalate]
  cases rest with
  | nil =>
      rw [List.map_cons, List.map_nil,
        List.intercalate_singleton]
  | cons second rest =>
      rw [List.map_cons, List.map_cons,
        List.intercalate_cons_cons, List.length_append,
        List.length_append, Nat.add_assoc]
      exact Nat.le_add_right _ _

/- What a stage does takes six characters to say. -/
theorem Stage.six_le_length_filterText (stage : Stage) :
    6 ≤ stage.filterText.length := by
  cases stage with
  | normalize size pixelFormat =>
      unfold Stage.filterText
      iterate 6 apply Text.le_length_append
      decide
  | motion path size rate =>
      unfold Stage.filterText MotionPath.filterText
      iterate 11 apply Text.le_length_append
      decide
  | blur ramp =>
      have hWindow :
          6 ≤ ramp.first.filterText.length := by
        unfold BlurWindow.filterText
        iterate 6 apply Text.le_length_append
        decide
      exact Nat.le_trans hWindow
        (Text.length_le_length_join "," _ _)
  | transition t =>
      unfold Stage.filterText Transition.filterText
      iterate 5 apply Text.le_length_append
      decide
  | resize size =>
      unfold Stage.filterText
      apply Text.le_length_append
      decide

theorem length_bracketed (label : String) :
    (bracketed label).length = label.length + 2 := by
  have hOpen : "[".length = 1 := by decide
  have hClose : "]".length = 1 := by decide
  rw [bracketed, String.length_append,
    String.length_append, hOpen, hClose]
  omega

/- The brackets of its label make it eight for a node. -/
theorem Node.eight_le_length_filterText (node : Node) :
    8 ≤ node.filterText.length := by
  have hStage := node.stage.six_le_length_filterText
  have hLength :
      node.filterText.length =
        (String.join
          (node.inputs.map Pad.filterText)).length +
        node.stage.filterText.length +
        (node.output.length + 2) := by
    rw [Node.filterText, String.length_append,
      String.length_append, length_bracketed]
  omega

namespace RenderGraph

variable {first second graph : RenderGraph}

/- The filter text of a graph with nodes is long. -/
theorem eight_le_length_filterText
    (hNodes : graph.nodes ≠ []) :
    8 ≤ (Utf8.encode graph.filterText).length := by
  rcases List.exists_cons_of_ne_nil hNodes with
    ⟨node, rest, hCons⟩
  calc 8 ≤ node.filterText.length :=
        node.eight_le_length_filterText
    _ ≤ graph.filterText.length := by
        rw [filterText, hCons, List.map_cons]
        exact Text.length_le_length_join ";" _ _
    _ ≤ (Utf8.encode graph.filterText).length :=
        Utf8.length_le_length_encode _

------------------------------------------------------------
-- Graphs with One Identity
------------------------------------------------------------

/- Two graphs agree on all that an identity holds. -/
structure Agrees (first second : RenderGraph) : Prop where
  inputs_eq : first.inputs = second.inputs
  filterText_eq : first.filterText = second.filterText
  micros_eq :
    Binary.roundMicros first.totalDuration =
      Binary.roundMicros second.totalDuration
  narration_eq :
    first.audio.map (·.path) = second.audio.map (·.path)

theorem identity_eq (graph : RenderGraph) :
    graph.identity =
      graph.inputs.flatMap Hash.textBytes ++
        (Hash.textBytes graph.filterText ++
          (Hash.wordBytes
              (Binary.roundMicros
                graph.totalDuration).toBits ++
            Hash.pathBytes (graph.audio.map (·.path)))) := by
  rw [identity, List.append_assoc, List.append_assoc]
  cases graph.audio <;> rfl

theorem eq_of_toBits_eq
    {x y : Float}
    (hBits : x.toBits = y.toBits) :
    x = y := by
  rcases x with ⟨⟨bits, hValid⟩⟩
  rcases y with ⟨⟨bits', hValid'⟩⟩
  cases hBits
  rfl

/- An identity can be read, if the graphs have nodes. -/
theorem agrees_of_identity_eq
    (hFirst : first.nodes ≠ [])
    (hSecond : second.nodes ≠ [])
    (hIdentity : first.identity = second.identity) :
    Agrees first second := by
  rw [identity_eq, identity_eq] at hIdentity
  rcases Hash.textBytes_flatMap_inj
      (eight_le_length_filterText hFirst)
      (eight_le_length_filterText hSecond) hIdentity with
    ⟨hInputs, hText, hBits, hPath⟩
  exact ⟨hInputs, hText, eq_of_toBits_eq hBits,
    Hash.pathBytes_injective hPath⟩

/- Graphs that agree are rendered by the same commands. -/
theorem Agrees.command_eq
    (hAgrees : Agrees first second)
    (hOutput : first.output = second.output)
    (encoder : EncoderSettings)
    (output : String) :
    first.command encoder output =
      second.command encoder output := by
  have hInputArgs : first.inputArgs = second.inputArgs := by
    rw [inputArgs, inputArgs, hAgrees.inputs_eq,
      hAgrees.narration_eq]
  have hAudioArgs :
      first.audioArgs encoder =
        second.audioArgs encoder := by
    have hNarration := hAgrees.narration_eq
    rw [audioArgs, audioArgs, audioInput, audioInput,
      hAgrees.inputs_eq]
    cases hAudio : first.audio with
    | none =>
        rw [hAudio, Option.map_none, eq_comm,
          Option.map_eq_none_iff] at hNarration
        rw [hNarration]
    | some track =>
        rw [hAudio, Option.map_some, eq_comm,
          Option.map_eq_some_iff] at hNarration
        rcases hNarration with ⟨track', hAudio', _⟩
        rw [hAudio']
  have hSeconds :
      secondsText first.totalDuration =
        secondsText second.totalDuration := by
    rw [secondsText, secondsText, hAgrees.micros_eq]
  rw [command, command, hInputArgs, hAudioArgs, hSeconds,
    hAgrees.filterText_eq, hOutput]

/-
  Two graphs with nodes and the usual output label that have
  the same identity agree on the input paths, the filter
  text, the length in microseconds and the narration, and so
  on their commands.  Different commands with one
  fingerprint are a collision of the hash.
-/
theorem command_eq_of_identity_eq
    (first second : RenderGraph)
    (hOutput : first.output = finalLabel)
    (hOutput' : second.output = finalLabel)
    (hNodes : first.nodes ≠ [])
    (hNodes' : second.nodes ≠ []) :
    (first.identity = second.identity →
      Agrees first second ∧
        ∀ encoder output,
          first.command encoder output =
            second.command encoder output) ∧
    ∀ encoder output,
      first.command encoder output ≠
          second.command encoder output →
        first.fingerprint = second.fingerprint →
        Hash.IsCollision first.identity second.identity := by
  have hSame : first.output = second.output :=
    hOutput.trans hOutput'.symm
  constructor
  · intro hIdentity
    have hAgrees :=
      agrees_of_identity_eq hNodes hNodes' hIdentity
    exact ⟨hAgrees, hAgrees.command_eq hSame⟩
  · intro encoder output hCommands hHash
    refine ⟨fun hIdentity => hCommands ?_, hHash⟩
    exact (agrees_of_identity_eq hNodes hNodes'
      hIdentity).command_eq hSame encoder output

/- One image with a narration of a length, if known. -/
def spoken (duration : Option Float) : RenderGraph where
  inputs := ["shot.png"]
  nodes := [
    { inputs := [.input 0]
      stage := .resize ⟨64, 36⟩
      output := finalLabel }]
  output := finalLabel
  totalDuration := 6.0
  audio := some ⟨"voice.wav", duration, .unknown⟩

/- The length of a narration is not in the commands. -/
theorem command_eq_of_identity_eq_spoken :
    spoken none ≠ spoken (some 5.0) ∧
      (spoken none).identity =
        (spoken (some 5.0)).identity ∧
      Agrees (spoken none) (spoken (some 5.0)) ∧
      ∀ encoder output,
        (spoken none).command encoder output =
          (spoken (some 5.0)).command encoder output := by
  have hDiffer : spoken none ≠ spoken (some 5.0) := by
    intro hEq
    have hAudio := congrArg RenderGraph.audio hEq
    cases hAudio
  exact ⟨hDiffer, rfl,
    (command_eq_of_identity_eq (spoken none)
      (spoken (some 5.0)) rfl rfl (List.cons_ne_nil _ _)
      (List.cons_ne_nil _ _)).1 rfl⟩

end RenderGraph

end Slideshow

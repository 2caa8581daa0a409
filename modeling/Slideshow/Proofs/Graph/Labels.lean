import Mathlib.Data.List.Nodup
import Slideshow.Graph.Assemble
import Slideshow.Proofs.Numeral

/-
  This file proves that the labels of an assembled graph
  tell its streams apart.  A label is the written form of a
  stream name, and reading it gives the name back.

  Key definitions include:
    * `StreamName`
    * `StreamName.text`
    * `Clip.streamNames`
    * `Timeline.streamNames`

  Main results include:
    * `StreamName.text_injective`
    * `Timeline.streamNames_nodup_iff`
-/

namespace Slideshow

------------------------------------------------------------
-- Stream Names
------------------------------------------------------------

/- The streams of an assembled graph. -/
inductive StreamName where
| normalized (i : Nat)
| moved (i : Nat)
| blurred (side : RampSide) (i : Nat)
| joined (boundary : Nat)
| final
deriving DecidableEq, Repr

namespace StreamName

/- The label of a stream. -/
def text : StreamName → String
  | .normalized i => Label.normalized i
  | .moved i => Label.moved i
  | .blurred side i => Label.blurred side i
  | .joined boundary => Label.joined boundary
  | .final => RenderGraph.finalLabel

/- The stream that a label stands for. -/
def ofLabel? : List Char → Option StreamName
  | 's' :: 'c' :: digits =>
      (Numeral.value? digits).map .normalized
  | 'k' :: 'b' :: digits =>
      (Numeral.value? digits).map .moved
  | 'b' :: 'h' :: digits =>
      (Numeral.value? digits).map (.blurred .incoming)
  | 'b' :: 't' :: digits =>
      (Numeral.value? digits).map (.blurred .outgoing)
  | 'v' :: 't' :: digits =>
      (Numeral.value? digits).map fun n => .joined (n - 1)
  | 'f' :: 'i' :: _ => some .final
  | _ => none

/- Labels read back. -/
theorem ofLabel?_text (name : StreamName) :
    ofLabel? name.text.toList = some name := by
  cases name with
  | normalized i =>
      simp [text, Label.normalized, ofLabel?,
        Numeral.value?_write]
  | moved i =>
      simp [text, Label.moved, ofLabel?,
        Numeral.value?_write]
  | blurred side i =>
      cases side with
      | incoming =>
          simp [text, Label.blurred, ofLabel?,
            Numeral.value?_write]
      | outgoing =>
          simp [text, Label.blurred, ofLabel?,
            Numeral.value?_write]
  | joined boundary =>
      simp [text, Label.joined, ofLabel?,
        Numeral.value?_write]
  | final =>
      rfl

/- Different streams have different labels. -/
theorem text_injective : Function.Injective text := by
  intro first second hEq
  have hName : some first = some second := by
    rw [← ofLabel?_text first, hEq, ofLabel?_text]
  exact Option.some.inj hName

/- The clip that a stream belongs to alone. -/
def clip? : StreamName → Option Nat
  | .normalized i => some i
  | .moved i => some i
  | .blurred _ i => some i
  | .joined _ => none
  | .final => none

end StreamName

------------------------------------------------------------
-- The Streams of a Timeline
------------------------------------------------------------

/- A ramp at the head is incoming, one at the tail outgoing. -/
structure ClipBlur.IsSided
    {τ : Type}
    (blur : ClipBlur τ) : Prop where
  head : ∀ ramp ∈ blur.head, ramp.side = .incoming
  tail : ∀ ramp ∈ blur.tail, ramp.side = .outgoing

theorem ClipBlur.none_isSided
    {τ : Type} :
    (ClipBlur.none : ClipBlur τ).IsSided :=
  ⟨by simp [ClipBlur.none], by simp [ClipBlur.none]⟩

/- The ramps of a clip are put at their sides. -/
theorem ClipBlur.annotate_isSided
    {τ : Type}
    [Add τ] [Mul τ] [Div τ]
    [OfNat τ 0] [OfNat τ 1] [OfNat τ 2] [OfNat τ 3]
    (position count : Nat)
    (baseDuration overlap : τ)
    (levels : BlurLevels τ) :
    (annotate position count baseDuration overlap
      levels).IsSided := by
  have hWhere :
      ∀ (p : Prop) [Decidable p]
        (ramp other : BlurRamp τ),
        other ∈ (if p then some ramp else .none) →
          other.side = ramp.side := by
    intro p _ ramp other hOther
    rw [Option.mem_def,
      Option.ite_none_right_eq_some] at hOther
    rw [← Option.some.inj hOther.2]
  refine ⟨?_, ?_⟩
  · intro ramp hRamp
    exact hWhere _ _ ramp hRamp
  · intro ramp hRamp
    exact hWhere _ _ ramp hRamp

/- The streams of the clip at a position, in order. -/
def Clip.streamNames
    (clip : Clip)
    (i : Nat) : List StreamName :=
  .normalized i :: .moved i ::
    clip.blur.stages.map fun ramp => .blurred ramp.side i

/- A clip has streams of its own only. -/
theorem Clip.clip?_of_mem_streamNames
    {clip : Clip}
    {i : Nat}
    {name : StreamName}
    (hName : name ∈ clip.streamNames i) :
    name.clip? = some i := by
  simp only [streamNames, List.mem_cons, List.mem_map]
    at hName
  rcases hName with rfl | rfl | ⟨ramp, _, rfl⟩
  · rfl
  · rfl
  · rfl

/- The two ramps of a clip have streams of their own. -/
theorem Clip.streamNames_nodup
    {clip : Clip}
    (hSided : clip.blur.IsSided)
    (i : Nat) :
    (clip.streamNames i).Nodup := by
  rcases hSided with ⟨hHead, hTail⟩
  rw [streamNames, ClipBlur.stages]
  cases hHeadRamp : clip.blur.head with
  | none =>
      cases clip.blur.tail with
      | none =>
          simp
      | some second =>
          simp
  | some first =>
      have hFirst : first.side = .incoming :=
        hHead first (by rw [hHeadRamp]; rfl)
      cases hTailRamp : clip.blur.tail with
      | none =>
          simp
      | some second =>
          have hSecond : second.side = .outgoing :=
            hTail second (by rw [hTailRamp]; rfl)
          simp [hFirst, hSecond]

namespace Timeline

variable {timeline : Timeline}

/- Every clip of a timeline has its ramps at their sides. -/
def IsSided (timeline : Timeline) : Prop :=
  ∀ clip ∈ timeline.clips, clip.blur.IsSided

/- The streams of the clips of a timeline, in order. -/
def clipStreamNames
    (timeline : Timeline) : List StreamName :=
  (timeline.clips.mapIdx fun i clip =>
    clip.streamNames i).flatten

/- The streams of the graph of a timeline, in order. -/
def streamNames (timeline : Timeline) : List StreamName :=
  timeline.clipStreamNames ++
    (timeline.transitions.map fun t =>
      .joined t.boundary) ++ [.final]

/- No two clips of a timeline share a stream. -/
theorem clipStreamNames_nodup
    (hSided : timeline.IsSided) :
    timeline.clipStreamNames.Nodup := by
  rw [clipStreamNames, List.nodup_flatten]
  constructor
  · intro names hNames
    rcases List.mem_mapIdx.mp hNames with ⟨i, hi, rfl⟩
    exact Clip.streamNames_nodup
      (hSided _ (List.getElem_mem hi)) i
  · rw [List.pairwise_iff_getElem]
    intro i j hi hj hLt name hFirst hSecond
    rw [List.getElem_mapIdx] at hFirst hSecond
    have hi := Clip.clip?_of_mem_streamNames hFirst
    have hj := Clip.clip?_of_mem_streamNames hSecond
    have hSame : i = j :=
      Option.some.inj (hi.symm.trans hj)
    omega

/-
  Streams repeat exactly if transitions share a boundary.
-/
theorem streamNames_nodup_iff
    (hSided : timeline.IsSided) :
    timeline.streamNames.Nodup ↔
      (timeline.transitions.map
        Transition.boundary).Nodup := by
  have hJoined :
      (timeline.transitions.map fun t =>
          StreamName.joined t.boundary) =
        (timeline.transitions.map
          Transition.boundary).map .joined := by
    rw [List.map_map]
    rfl
  have hInjective :
      Function.Injective StreamName.joined := by
    intro first second hEq
    exact StreamName.joined.inj hEq
  rw [streamNames, hJoined]
  constructor
  · intro hNodup
    exact hNodup.of_append_left.of_append_right.of_map _
  · intro hNodup
    have hClip :
        ∀ name ∈ timeline.clipStreamNames,
          name.clip?.isSome := by
      intro name hName
      rcases List.mem_flatten.mp hName with
        ⟨names, hNames, hName⟩
      rcases List.mem_mapIdx.mp hNames with ⟨i, hi, rfl⟩
      rw [Clip.clip?_of_mem_streamNames hName]
      rfl
    apply List.Nodup.append
    · apply (clipStreamNames_nodup hSided).append
      · exact hNodup.map hInjective
      · intro name hName hOther
        rcases List.mem_map.mp hOther with ⟨_, _, rfl⟩
        exact absurd (hClip _ hName) Bool.false_ne_true
    · exact List.nodup_singleton _
    · intro name hName hFinal
      rw [List.mem_singleton.mp hFinal,
        List.mem_append] at hName
      rcases hName with hName | hName
      · exact absurd (hClip _ hName) Bool.false_ne_true
      · rcases List.mem_map.mp hName with ⟨_, _, hEq⟩
        exact StreamName.noConfusion hEq

end Timeline

end Slideshow

import Slideshow.Graph.Assemble
import Slideshow.Proofs.Graph.Wiring

/-
  This file proves that the parts of an assembled graph pass
  streams on without losing or doubling one.

  A part is a flow (`IsFlow`) from the streams it finds to
  the streams it leaves.  Flows follow one another
  (`IsFlow.comp`) and let other streams pass by
  (`IsFlow.frame`).  Ramps, chains and joins are flows, and
  a graph that is one can only fail the check by defining a
  label twice.

  Key definitions include:
    * `IsFlow`

  Main results include:
    * `RenderGraph.validate_eq_ok_iff_of_isFlow`
    * `joinNodes_isFlow`
    * `Clip.chain_isFlow`
-/

namespace Slideshow

------------------------------------------------------------
-- Flows
------------------------------------------------------------

/-
  Nodes that turn the streams `sources` into the streams
  `ends`: each stream that enters or is made is read once
  within, unless it is one of the ends.
-/
structure IsFlow
    (count : Nat)
    (sources : List String)
    (nodes : List Node)
    (ends : List String) : Prop where
  ordered : IsOrdered count sources nodes
  balanced :
    (sources ++ nodes.map Node.output).Perm
      (Node.reads Pad.label? nodes ++ ends)

namespace IsFlow

variable {count : Nat}
variable {sources middle ends : List String}
variable {first second nodes : List Node}

theorem nil (sources : List String) :
    IsFlow count sources [] sources :=
  ⟨trivial, by simp⟩

/- One node turns the streams it reads into its own. -/
theorem single
    {pads : List Pad}
    {stage : Stage}
    {output : String}
    (hSources : pads.filterMap Pad.label? = sources)
    (hInputs : ∀ i, .input i ∈ pads → i < count) :
    IsFlow count sources [⟨pads, stage, output⟩]
      [output] := by
  refine ⟨⟨?_, trivial⟩, ?_⟩
  · intro pad hPad
    cases pad with
    | input i =>
        exact hInputs i hPad
    | label name =>
        rw [← hSources]
        exact List.mem_filterMap.mpr ⟨_, hPad, rfl⟩
  · simp [hSources]

theorem ends_subset
    (hFlow : IsFlow count sources nodes ends) :
    ends ⊆ sources ++ nodes.map Node.output := by
  intro name hName
  apply hFlow.balanced.mem_iff.mpr
  exact List.mem_append_right _ hName

/- One flow behind another. -/
theorem comp
    (hFirst : IsFlow count sources first middle)
    (hSecond : IsFlow count middle second ends) :
    IsFlow count sources (first ++ second) ends := by
  refine ⟨?_, ?_⟩
  · rw [IsOrdered.append_iff]
    exact ⟨hFirst.ordered,
      hSecond.ordered.mono hFirst.ends_subset⟩
  · have hStart :
        (sources ++ first.map Node.output ++
            second.map Node.output).Perm
          (Node.reads Pad.label? first ++ middle ++
            second.map Node.output) :=
      hFirst.balanced.append_right _
    have hFinish :
        (Node.reads Pad.label? first ++
            (middle ++ second.map Node.output)).Perm
          (Node.reads Pad.label? first ++
            (Node.reads Pad.label? second ++ ends)) :=
      hSecond.balanced.append_left _
    rw [List.append_assoc, List.append_assoc] at hStart
    rw [List.map_append, Node.reads_append,
      List.append_assoc]
    exact hStart.trans hFinish

/- Other streams pass by. -/
theorem frame
    (hFlow : IsFlow count sources nodes ends)
    (extra : List String) :
    IsFlow count (sources ++ extra) nodes
      (ends ++ extra) := by
  refine ⟨?_, ?_⟩
  · exact hFlow.ordered.mono (List.subset_append_left _ _)
  · have hSwap :
        (sources ++ extra ++ nodes.map Node.output).Perm
          (sources ++ nodes.map Node.output ++ extra) := by
      rw [List.append_assoc, List.append_assoc]
      exact List.perm_append_comm.append_left _
    rw [← List.append_assoc]
    exact hSwap.trans (hFlow.balanced.append_right _)

theorem of_perm
    {ends' : List String}
    (hFlow : IsFlow count sources nodes ends)
    (hPerm : ends.Perm ends') :
    IsFlow count sources nodes ends' :=
  ⟨hFlow.ordered,
    hFlow.balanced.trans (hPerm.append_left _)⟩

/- Flows without sources, side by side. -/
theorem flatMap
    {flows : List (List Node × String)}
    (hFlows :
      ∀ flow ∈ flows, IsFlow count [] flow.1 [flow.2]) :
    IsFlow count [] (flows.flatMap Prod.fst)
      (flows.map Prod.snd) := by
  induction flows with
  | nil =>
      exact nil []
  | cons flow flows ih =>
      rw [List.forall_mem_cons] at hFlows
      have hRest :
          IsFlow count [flow.2] (flows.flatMap Prod.fst)
            (flow.2 :: flows.map Prod.snd) :=
        ((ih hFlows.2).frame [flow.2]).of_perm
          List.perm_append_comm
      exact hFlows.1.comp hRest

end IsFlow

/-
  A graph that makes its result out of images, each read
  once, passes the check unless it defines a label twice.
-/
theorem RenderGraph.validate_eq_ok_iff_of_isFlow
    {graph : RenderGraph}
    (hFlow :
      IsFlow graph.inputs.length [] graph.nodes
        [graph.output])
    (hInputs :
      Node.reads Pad.input? graph.nodes =
        List.range graph.inputs.length) :
    graph.validate = .ok () ↔ graph.outputs.Nodup := by
  rw [validate_eq_ok_iff_wiring, wiring_defined,
    wiring_consumed, wiring_inputsRead]
  constructor
  · rintro ⟨_, hNoRepeats, _⟩
    rw [← wiring_defined]
    exact hNoRepeats.defined
  · intro hNodup
    have hPerm :
        graph.outputs.Perm
          (Node.reads Pad.label? graph.nodes ++
            [graph.output]) :=
      hFlow.balanced
    have hLabels :
        (Node.reads Pad.label? graph.nodes ++
          [graph.output]).Nodup :=
      hPerm.nodup hNodup
    refine ⟨hFlow.ordered, ⟨?_, ?_⟩, ?_, ?_⟩
    · rw [wiring_defined]
      exact hNodup
    · rw [wiring_consumed]
      exact hLabels.of_append_left
    · intro i hi
      rw [hInputs]
      exact List.count_eq_one_of_mem List.nodup_range
        (List.mem_range.mpr hi)
    · intro label hLabel
      have hUnread :
          graph.output ∉
            Node.reads Pad.label? graph.nodes := by
        intro hRead
        exact hLabels.disjoint hRead
          (List.mem_singleton_self _)
      rw [hPerm.mem_iff, List.mem_append,
        List.mem_singleton] at hLabel
      constructor
      · rintro hRead rfl
        exact hUnread hRead
      · intro hNe
        exact hLabel.resolve_right hNe

------------------------------------------------------------
-- Chains and Joins
------------------------------------------------------------

/- Blur ramps turn the stream before them into the last. -/
theorem blurNodes_isFlow
    (count i : Nat)
    (source : String)
    (ramps : List (BlurRamp Float)) :
    IsFlow count [source] (blurNodes i source ramps).1
      [(blurNodes i source ramps).2] := by
  induction ramps generalizing source with
  | nil =>
      exact .nil [source]
  | cons ramp ramps ih =>
      have hBlur :
          IsFlow count [source]
            [⟨[.label source], .blur ramp,
              Label.blurred ramp.side i⟩]
            [Label.blurred ramp.side i] :=
        .single rfl (by simp)
      exact hBlur.comp (ih _)

/- Joins turn the first stream and others into one. -/
theorem joinNodes_isFlow
    (count : Nat)
    (source : String)
    (steps : List (Transition Float × String)) :
    IsFlow count (source :: steps.map Prod.snd)
      (joinNodes source steps).1
      [(joinNodes source steps).2] := by
  induction steps generalizing source with
  | nil =>
      exact .nil [source]
  | cons step steps ih =>
      rcases step with ⟨t, next⟩
      have hJoin :
          IsFlow count [source, next]
            [⟨[.label source, .label next], .transition t,
              Label.joined t.boundary⟩]
            [Label.joined t.boundary] :=
        .single rfl (by simp)
      exact (hJoin.frame (steps.map Prod.snd)).comp (ih _)

/- Blur ramps read no image. -/
theorem inputsRead_blurNodes
    (i : Nat)
    (source : String)
    (ramps : List (BlurRamp Float)) :
    Node.reads Pad.input? (blurNodes i source ramps).1 =
      [] := by
  induction ramps generalizing source with
  | nil =>
      rfl
  | cons ramp ramps ih =>
      simp [blurNodes, Pad.input?, ih]

theorem inputsRead_joinNodes
    (source : String)
    (steps : List (Transition Float × String)) :
    Node.reads Pad.input? (joinNodes source steps).1 =
      [] := by
  induction steps generalizing source with
  | nil =>
      rfl
  | cons step steps ih =>
      simp [joinNodes, Pad.input?, List.filterMap_cons, ih]

/- The labels of the blurred streams of a clip. -/
theorem outputs_blurNodes
    (i : Nat)
    (source : String)
    (ramps : List (BlurRamp Float)) :
    (blurNodes i source ramps).1.map Node.output =
      ramps.map fun ramp => Label.blurred ramp.side i := by
  induction ramps generalizing source with
  | nil =>
      rfl
  | cons ramp ramps ih =>
      simp [blurNodes, ih]

theorem outputs_joinNodes
    (source : String)
    (steps : List (Transition Float × String)) :
    (joinNodes source steps).1.map Node.output =
      steps.map fun step => Label.joined step.1.boundary := by
  induction steps generalizing source with
  | nil =>
      rfl
  | cons step steps ih =>
      simp [joinNodes, ih]

namespace Clip

/- The chain of a clip makes one stream out of an image. -/
theorem chain_isFlow
    (clip : Clip)
    (config : Config)
    (working : FrameSize)
    {count i : Nat}
    (hInput : i < count) :
    IsFlow count [] (clip.chain config working i).1
      [(clip.chain config working i).2] := by
  have hNormalize :
      IsFlow count []
        [⟨[.input i],
          .normalize working config.encoder.pixelFormat,
          Label.normalized i⟩]
        [Label.normalized i] :=
    .single rfl (by simp [hInput])
  have hMove :
      IsFlow count [Label.normalized i]
        [⟨[.label (Label.normalized i)],
          .motion clip.motion working config.rate,
          Label.moved i⟩]
        [Label.moved i] :=
    .single rfl (by simp)
  exact hNormalize.comp
    (hMove.comp (blurNodes_isFlow count i _ _))

theorem inputsRead_chain
    (clip : Clip)
    (config : Config)
    (working : FrameSize)
    (i : Nat) :
    Node.reads Pad.input? (clip.chain config working i).1 =
      [i] := by
  simp [chain, Pad.input?, List.filterMap_cons,
    inputsRead_blurNodes]

end Clip

end Slideshow

import Slideshow.Proofs.Graph.Flow
import Slideshow.Proofs.Graph.Labels
import Slideshow.Proofs.Timeline

/-
  This file proves which timelines can be assembled.

  The graph of a timeline makes one stream out of its
  images, so that its wiring can only fail where two nodes
  have the same label, and those are two transitions at one
  boundary.  A timeline that is built has no such
  transitions.

  Main results include:
    * `Timeline.graph_isFlow`
    * `Timeline.validate_graph_eq_ok_iff`
    * `Timeline.assemble_eq_ok_iff`
    * `Timeline.exists_assemble_iff`
-/

namespace Slideshow

------------------------------------------------------------
-- The Graph of a Timeline
------------------------------------------------------------

theorem Clip.outputs_chain
    (clip : Clip)
    (config : Config)
    (working : FrameSize)
    (i : Nat) :
    (clip.chain config working i).1.map Node.output =
      (clip.streamNames i).map StreamName.text := by
  simp [Clip.chain, Clip.streamNames, StreamName.text,
    outputs_blurNodes]

namespace Timeline

variable (timeline : Timeline)
variable (config : Config)
variable (working : FrameSize)

theorem chains_isFlow :
    ∀ chain ∈ timeline.chains config working,
      IsFlow timeline.clips.length [] chain.1
        [chain.2] := by
  intro chain hChain
  rcases List.mem_mapIdx.mp hChain with ⟨i, hi, rfl⟩
  exact Clip.chain_isFlow _ config working hi

/- The chains read every image once, in order. -/
theorem inputsRead_chains :
    Node.reads Pad.input?
        ((timeline.chains config working).flatMap
          Prod.fst) =
      List.range timeline.clips.length := by
  have hFlows :
      ∀ flows : List (List Node × String),
        Node.reads Pad.input? (flows.flatMap Prod.fst) =
          flows.flatMap fun flow =>
            Node.reads Pad.input? flow.1 := by
    intro flows
    simp [Node.reads, List.flatMap_assoc,
      List.filterMap_flatMap]
  rw [hFlows, chains, List.mapIdx_eq_zipIdx_map,
    List.flatMap_map]
  simp only [Clip.inputsRead_chain]
  rw [List.range_eq_range', ← List.zipIdx_map_snd]
  exact List.map_eq_flatMap.symm

theorem outputs_chains :
    ((timeline.chains config working).flatMap
        Prod.fst).map Node.output =
      timeline.clipStreamNames.map StreamName.text := by
  rw [chains, clipStreamNames, List.map_flatMap,
    List.map_flatten, List.flatMap_def,
    List.mapIdx_eq_zipIdx_map, List.mapIdx_eq_zipIdx_map,
    List.map_map, List.map_map]
  simp only [Function.comp_def, Clip.outputs_chain]

/- The ends of the chains. -/
def chainEnds : List String :=
  (timeline.chains config working).map Prod.snd

theorem length_chainEnds :
    (timeline.chainEnds config working).length =
      timeline.clips.length := by
  simp [chainEnds, chains]

/- The joins of the chains of a timeline. -/
def joins : List Node × String :=
  joinNodes ((timeline.chainEnds config working).headD "")
    (timeline.transitions.zip
      (timeline.chainEnds config working).tail)

theorem graph_nodes :
    (timeline.graph config working).nodes =
      (timeline.chains config working).flatMap Prod.fst ++
        (timeline.joins config working).1 ++
        [⟨[.label (timeline.joins config working).2],
          .resize config.size, RenderGraph.finalLabel⟩] :=
  rfl

theorem inputsRead_graph :
    Node.reads Pad.input?
        (timeline.graph config working).nodes =
      List.range timeline.clips.length := by
  rw [graph_nodes]
  simp [inputsRead_chains, joins, inputsRead_joinNodes,
    Pad.input?, List.filterMap_cons]

variable (hCount :
  timeline.transitions.length + 1 = timeline.clips.length)
include hCount

/- The joins turn the ends of the chains into one stream. -/
theorem joins_isFlow (count : Nat) :
    IsFlow count (timeline.chainEnds config working)
      (timeline.joins config working).1
      [(timeline.joins config working).2] := by
  have hLength := timeline.length_chainEnds config working
  unfold joins
  cases hEnds : timeline.chainEnds config working with
  | nil =>
      rw [hEnds, List.length_nil] at hLength
      omega
  | cons first rest =>
      rw [hEnds, List.length_cons] at hLength
      have hNext :
          (timeline.transitions.zip rest).map Prod.snd =
            rest :=
        List.map_snd_zip (by omega)
      have hFlow :=
        joinNodes_isFlow count first
          (timeline.transitions.zip rest)
      rw [hNext] at hFlow
      exact hFlow

/- The labels of the joins are those of the streams. -/
theorem outputs_joins :
    (timeline.joins config working).1.map Node.output =
      (timeline.transitions.map fun t =>
        StreamName.joined t.boundary).map
          StreamName.text := by
  have hLength :
      timeline.transitions.length ≤
        (timeline.chainEnds config working).tail.length := by
    rw [List.length_tail, length_chainEnds]
    omega
  rw [joins, outputs_joinNodes]
  conv_rhs =>
    rw [← List.map_fst_zip hLength, List.map_map,
      List.map_map]
  rfl

theorem outputs_graph :
    (timeline.graph config working).outputs =
      timeline.streamNames.map StreamName.text := by
  rw [RenderGraph.outputs, graph_nodes, List.map_append,
    List.map_append, outputs_chains,
    timeline.outputs_joins config working hCount,
    streamNames, List.map_append, List.map_append]
  rfl

/- The whole graph makes one stream out of the images. -/
theorem graph_isFlow :
    IsFlow timeline.clips.length []
      (timeline.graph config working).nodes
      [RenderGraph.finalLabel] := by
  have hChains :=
    IsFlow.flatMap (timeline.chains_isFlow config working)
  have hJoins :=
    timeline.joins_isFlow config working hCount
      timeline.clips.length
  have hFinish :
      IsFlow timeline.clips.length
        [(timeline.joins config working).2]
        [⟨[.label (timeline.joins config working).2],
          .resize config.size, RenderGraph.finalLabel⟩]
        [RenderGraph.finalLabel] :=
    .single rfl (by simp)
  rw [graph_nodes]
  exact (hChains.comp hJoins).comp hFinish

/-
  The graph of a timeline passes the check unless two of the
  transitions are at the same boundary.
-/
theorem validate_graph_eq_ok_iff
    (hSided : timeline.IsSided) :
    (timeline.graph config working).validate = .ok () ↔
      (timeline.transitions.map
        Transition.boundary).Nodup := by
  have hLength :
      (timeline.graph config working).inputs.length =
        timeline.clips.length :=
    List.length_map _
  rw [RenderGraph.validate_eq_ok_iff_of_isFlow,
    timeline.outputs_graph config working hCount,
    List.nodup_map_iff StreamName.text_injective,
    streamNames_nodup_iff hSided]
  · rw [hLength]
    exact timeline.graph_isFlow config working hCount
  · rw [hLength]
    exact timeline.inputsRead_graph config working

omit hCount

/- When a timeline can be assembled, and to which graph. -/
theorem assemble_eq_ok_iff
    {graph : RenderGraph} :
    timeline.assemble config = .ok graph ↔
      timeline.transitions.length + 1 =
          timeline.clips.length ∧
        ∃ working,
          config.workingSize = .ok working ∧
            graph = timeline.graph config working ∧
            graph.validate = .ok () := by
  unfold assemble
  rw [Outcome.guard_eq_ok_iff, Outcome.guard_eq_ok_iff,
    Outcome.bind_eq_ok_iff]
  constructor
  · rintro ⟨_, hCount, working, hWorking, hGraph⟩
    rw [Outcome.mapError_eq_ok_iff] at hWorking
    rw [Outcome.bind_eq_ok_iff] at hGraph
    rcases hGraph with ⟨⟨⟩, hValid, hEq⟩
    rw [Outcome.mapError_eq_ok_iff] at hValid
    cases hEq
    exact ⟨not_not.mp hCount, working, hWorking, rfl, hValid⟩
  · rintro ⟨hCount, working, hWorking, rfl, hValid⟩
    refine ⟨by omega, not_not.mpr hCount, working, ?_, ?_⟩
    · rw [Outcome.mapError_eq_ok_iff]
      exact hWorking
    · rw [Outcome.bind_eq_ok_iff]
      refine ⟨(), ?_, rfl⟩
      rw [Outcome.mapError_eq_ok_iff]
      exact hValid

end Timeline

------------------------------------------------------------
-- Built Timelines
------------------------------------------------------------

theorem Shot.blur_isSided
    (shot : Shot)
    (config : Config)
    (index count : Nat) :
    (shot.blur config index count).IsSided := by
  unfold Shot.blur
  split
  · exact ClipBlur.annotate_isSided _ _ _ _ _
  · exact ClipBlur.none_isSided

namespace Timeline

variable {σ : Type}
variable [WordSource σ]
variable {shots : List Shot}
variable {config : Config}
variable {s s' : σ}
variable {timeline : Timeline}

/- A timeline that is built has its ramps at their sides. -/
theorem isSided_of_build
    (hBuild : build shots config s = .ok (timeline, s')) :
    timeline.IsSided := by
  rcases build_eq_ok_iff.mp hBuild with
    ⟨_, _, working, clips, s₁, transitions, _, hClips, _,
      rfl⟩
  intro clip hClip
  rcases blur_of_mem_clipsFrom hClips hClip with
    ⟨shot, _, position, hBlur⟩
  rw [hBlur]
  exact shot.blur_isSided config position _

/-
  A timeline that is built has one transition less than it
  has clips, each at a boundary of its own.
-/
theorem boundaries_of_build
    (hBuild : build shots config s = .ok (timeline, s')) :
    timeline.transitions.length + 1 =
        timeline.clips.length ∧
      timeline.transitions.map Transition.boundary =
        List.range (timeline.clips.length - 1) := by
  rcases build_eq_ok_iff.mp hBuild with
    ⟨hShots, _, working, clips, s₁, transitions, _, hClips,
      hPlaced, rfl⟩
  have hBoundaries :=
    Schedule.boundaries_of_transitions hPlaced
  rw [List.length_map] at hBoundaries
  have hLength : 0 < clips.length := by
    rw [length_of_clipsFrom hClips]
    exact List.length_pos_iff.mpr hShots
  have hCount := congrArg List.length hBoundaries
  rw [List.length_map, List.length_range] at hCount
  refine ⟨?_, hBoundaries⟩
  show transitions.length + 1 = clips.length
  omega

theorem workingSize_of_build
    (hBuild : build shots config s = .ok (timeline, s')) :
    ∃ working, config.workingSize = .ok working := by
  rcases build_eq_ok_iff.mp hBuild with
    ⟨_, _, working, _, _, _, hWorking, _⟩
  exact ⟨working, hWorking⟩

/-
  A timeline with its ramps at their sides can be assembled
  exactly if it has a clip, one transition less than it has
  clips, a size to work at, and no two transitions at one
  boundary.
-/
theorem exists_assemble_iff_of_isSided
    {timeline : Timeline}
    {config : Config}
    (hSided : timeline.IsSided) :
    (∃ graph, timeline.assemble config = .ok graph) ↔
      timeline.clips ≠ [] ∧
        timeline.transitions.length + 1 =
          timeline.clips.length ∧
        (∃ working, config.workingSize = .ok working) ∧
        (timeline.transitions.map
          Transition.boundary).Nodup := by
  constructor
  · rintro ⟨graph, hGraph⟩
    rw [assemble_eq_ok_iff] at hGraph
    rcases hGraph with
      ⟨hCount, working, hWorking, rfl, hValid⟩
    rw [timeline.validate_graph_eq_ok_iff config working
      hCount hSided] at hValid
    refine ⟨?_, hCount, ⟨working, hWorking⟩, hValid⟩
    apply List.ne_nil_of_length_pos
    omega
  · rintro ⟨_, hCount, ⟨working, hWorking⟩, hNodup⟩
    refine ⟨timeline.graph config working, ?_⟩
    rw [assemble_eq_ok_iff]
    refine ⟨hCount, working, hWorking, rfl, ?_⟩
    rw [timeline.validate_graph_eq_ok_iff config working
      hCount hSided]
    exact hNodup

/-
  Which timelines can be assembled; those that are built
  always can, with the settings they are built for.
-/
theorem exists_assemble_iff :
    (∀ (timeline : Timeline) (config : Config),
      timeline.IsSided →
        ((∃ graph, timeline.assemble config = .ok graph) ↔
          timeline.clips ≠ [] ∧
            timeline.transitions.length + 1 =
              timeline.clips.length ∧
            (∃ working,
              config.workingSize = .ok working) ∧
            (timeline.transitions.map
              Transition.boundary).Nodup)) ∧
      ∀ (σ : Type) [WordSource σ]
        (shots : List Shot)
        (config : Config)
        (s s' : σ)
        (timeline : Timeline),
        build shots config s = .ok (timeline, s') →
          ∃ graph,
            timeline.assemble config = .ok graph := by
  refine ⟨?_, ?_⟩
  · intro timeline config hSided
    exact exists_assemble_iff_of_isSided hSided
  · intro σ _ shots config s s' timeline hBuild
    have hSided := isSided_of_build hBuild
    rcases boundaries_of_build hBuild with
      ⟨hCount, hBoundaries⟩
    rw [exists_assemble_iff_of_isSided hSided]
    refine
      ⟨?_, hCount, workingSize_of_build hBuild, ?_⟩
    · apply List.ne_nil_of_length_pos
      omega
    · rw [hBoundaries]
      exact List.nodup_range

end Timeline

/- Two shots of one second, the second with any move. -/
def Shot.couple : List Shot :=
  [⟨"01", "a.png", ⟨8, 8⟩, ⟨0.0, 1.0⟩, some .zoomIn⟩,
    ⟨"02", "b.png", ⟨8, 8⟩, ⟨1.0, 2.0⟩, none⟩]

/- The standard settings at one frame a second. -/
def Config.coarse : Config :=
  { Config.standard with rate := ⟨1, 1⟩ }

namespace Timeline

/-
  Two shots make a timeline that can be assembled; without
  its clips it could not.
-/
theorem exists_assemble_couple :
    ∃ timeline s',
      build Shot.couple Config.coarse
          (WordScript.ofList [7]) = .ok (timeline, s') ∧
        timeline.IsSided ∧
        (∃ graph,
          timeline.assemble Config.coarse = .ok graph) ∧
        ¬ ∃ graph,
          { timeline with clips := [] }.assemble
            Config.coarse = .ok graph := by
  have hExists :
      ∃ timeline s',
        build Shot.couple Config.coarse
          (WordScript.ofList [7]) = .ok (timeline, s') :=
    ⟨_, _, rfl⟩
  rcases hExists with ⟨timeline, s', hBuild⟩
  refine ⟨timeline, s', hBuild, isSided_of_build hBuild,
    exists_assemble_iff.2 _ _ _ _ _ _ hBuild, ?_⟩
  have hSided : { timeline with clips := [] }.IsSided := by
    intro clip hClip
    exact absurd hClip List.not_mem_nil
  rw [exists_assemble_iff.1 _ _ hSided]
  rintro ⟨hClips, _⟩
  exact hClips rfl

end Timeline

end Slideshow

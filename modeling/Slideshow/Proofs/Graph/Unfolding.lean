import Slideshow.Proofs.Graph.Assembly

/-
  This file proves that an assembled graph means what its
  timeline says: its result, unfolded, is the film of the
  clips in order, and every node has its place in it.

  Unfolding replaces a label by the node that defines it,
  until only images are left.  The unfolding exists because
  nodes are where their readers look for them, and it is the
  only one because labels differ.

  Key definitions include:
    * `StreamTerm`
    * `RenderGraph.Unfolds`
    * `Clip.term`
    * `Timeline.filmUpTo?`

  Main results include:
    * `RenderGraph.Unfolds.unique`
    * `Timeline.assemble_unfolds`
-/

namespace Slideshow

------------------------------------------------------------
-- Unfolding
------------------------------------------------------------

/- What a stream is made of, without labels. -/
inductive StreamTerm where
| image (i : Nat)
| staged (stage : Stage) (sources : List StreamTerm)

/-
  Pads unfold to the terms of what they read.  The nodes met
  on the way are listed as often as they are met.
-/
inductive RenderGraph.Unfolds
    (graph : RenderGraph) :
    List Pad → List StreamTerm → List Node → Prop where
| nil : graph.Unfolds [] [] []
| input
    {i : Nat}
    {pads : List Pad}
    {terms : List StreamTerm}
    {used : List Node}
    (hPads : graph.Unfolds pads terms used) :
    graph.Unfolds (.input i :: pads) (.image i :: terms)
      used
| label
    {name : String}
    {node : Node}
    {pads : List Pad}
    {sources terms : List StreamTerm}
    {above used : List Node}
    (hNode : node ∈ graph.nodes)
    (hOutput : node.output = name)
    (hInputs : graph.Unfolds node.inputs sources above)
    (hPads : graph.Unfolds pads terms used) :
    graph.Unfolds (.label name :: pads)
      (.staged node.stage sources :: terms)
      (node :: above ++ used)

namespace RenderGraph.Unfolds

variable {graph : RenderGraph}

/- Where labels differ, there is one unfolding at most. -/
theorem unique
    (hNodup : graph.outputs.Nodup)
    {pads : List Pad}
    {terms terms' : List StreamTerm}
    {used used' : List Node}
    (hFirst : graph.Unfolds pads terms used)
    (hSecond : graph.Unfolds pads terms' used') :
    terms' = terms ∧ used' = used := by
  induction hFirst generalizing terms' used' with
  | nil =>
      cases hSecond
      exact ⟨rfl, rfl⟩
  | input _ ih =>
      cases hSecond with
      | input hPads =>
          rcases ih hPads with ⟨rfl, rfl⟩
          exact ⟨rfl, rfl⟩
  | label hNode hOutput _ _ ihInputs ihPads =>
      cases hSecond with
      | label hNode' hOutput' hInputs' hPads' =>
          have hSame :=
            List.inj_on_of_nodup_map hNodup hNode' hNode
              (hOutput'.trans hOutput.symm)
          subst hSame
          rcases ihInputs hInputs' with ⟨rfl, rfl⟩
          rcases ihPads hPads' with ⟨rfl, rfl⟩
          exact ⟨rfl, rfl⟩

/- One pad in front of others. -/
theorem cons
    {pad : Pad}
    {pads : List Pad}
    {term : StreamTerm}
    {terms : List StreamTerm}
    {first rest : List Node}
    (hPad : graph.Unfolds [pad] [term] first)
    (hPads : graph.Unfolds pads terms rest) :
    graph.Unfolds (pad :: pads) (term :: terms)
      (first ++ rest) := by
  cases hPad with
  | input hNil =>
      cases hNil
      exact .input hPads
  | label hNode hOutput hInputs hNil =>
      cases hNil
      rw [List.append_nil]
      exact .label hNode hOutput hInputs hPads

end RenderGraph.Unfolds

/-
  A label unfolds to a term, and the given nodes are those
  met on the way, in some order.
-/
def RenderGraph.Makes
    (graph : RenderGraph)
    (label : String)
    (term : StreamTerm)
    (nodes : List Node) : Prop :=
  ∃ used,
    graph.Unfolds [.label label] [term] used ∧
      used.Perm nodes

namespace RenderGraph.Makes

variable {graph : RenderGraph}
variable {node : Node}

theorem of_perm
    {label : String}
    {term : StreamTerm}
    {nodes nodes' : List Node}
    (hMakes : graph.Makes label term nodes)
    (hPerm : nodes.Perm nodes') :
    graph.Makes label term nodes' := by
  rcases hMakes with ⟨used, hUnfolds, hUsed⟩
  exact ⟨used, hUnfolds, hUsed.trans hPerm⟩

/- A node whose pads unfold. -/
theorem of_unfolds
    {sources : List StreamTerm}
    {above nodes : List Node}
    (hNode : node ∈ graph.nodes)
    (hInputs : graph.Unfolds node.inputs sources above)
    (hPerm : above.Perm nodes) :
    graph.Makes node.output (.staged node.stage sources)
      (nodes ++ [node]) := by
  refine ⟨node :: above ++ [], ?_, ?_⟩
  · exact .label hNode rfl hInputs .nil
  · rw [List.append_nil]
    exact (hPerm.cons node).trans
      (List.perm_append_singleton node nodes).symm

/- A node that reads an image. -/
theorem of_input
    {i : Nat}
    (hNode : node ∈ graph.nodes)
    (hInputs : node.inputs = [.input i]) :
    graph.Makes node.output
      (.staged node.stage [.image i]) [node] := by
  have hImage :
      graph.Unfolds node.inputs [.image i] [] := by
    rw [hInputs]
    exact .input .nil
  exact of_unfolds hNode hImage (.refl _)

/- A node that reads one stream. -/
theorem of_label
    {source : String}
    {term : StreamTerm}
    {nodes : List Node}
    (hSource : graph.Makes source term nodes)
    (hNode : node ∈ graph.nodes)
    (hInputs : node.inputs = [.label source]) :
    graph.Makes node.output (.staged node.stage [term])
      (nodes ++ [node]) := by
  rcases hSource with ⟨used, hUnfolds, hPerm⟩
  rw [← hInputs] at hUnfolds
  exact of_unfolds hNode hUnfolds hPerm

/- A node that reads two streams. -/
theorem of_labels
    {first second : String}
    {firstTerm secondTerm : StreamTerm}
    {firstNodes secondNodes : List Node}
    (hFirst : graph.Makes first firstTerm firstNodes)
    (hSecond : graph.Makes second secondTerm secondNodes)
    (hNode : node ∈ graph.nodes)
    (hInputs :
      node.inputs = [.label first, .label second]) :
    graph.Makes node.output
      (.staged node.stage [firstTerm, secondTerm])
      (firstNodes ++ secondNodes ++ [node]) := by
  rcases hFirst with ⟨firstUsed, hFirst, hFirstPerm⟩
  rcases hSecond with ⟨secondUsed, hSecond, hSecondPerm⟩
  have hBoth := hFirst.cons hSecond
  rw [← hInputs] at hBoth
  exact of_unfolds hNode hBoth
    (hFirstPerm.append hSecondPerm)

end RenderGraph.Makes

------------------------------------------------------------
-- The Film of a Timeline
------------------------------------------------------------

/- A term behind a ramp, if there is one. -/
def StreamTerm.behind
    (term : StreamTerm) :
    Option (BlurRamp Float) → StreamTerm
  | none => term
  | some ramp => .staged (.blur ramp) [term]

/-
  The term of the clip at a position: its image, normalized,
  moved, and behind the ramps it has, head before tail.
-/
def Clip.term
    (clip : Clip)
    (config : Config)
    (working : FrameSize)
    (i : Nat) : StreamTerm :=
  let normalized : StreamTerm :=
    .staged
      (.normalize working config.encoder.pixelFormat)
      [.image i]
  let moved : StreamTerm :=
    .staged (.motion clip.motion working config.rate)
      [normalized]
  (moved.behind clip.blur.head).behind clip.blur.tail

/-
  The term of the film up to the clip at a position: each
  transition joins what comes before it and the next clip.
-/
def Timeline.filmUpTo?
    (timeline : Timeline)
    (config : Config)
    (working : FrameSize) : Nat → Option StreamTerm
  | 0 => do
      let clip ← timeline.clips[0]?
      return clip.term config working 0
  | k + 1 => do
      let before ← timeline.filmUpTo? config working k
      let t ← timeline.transitions[k]?
      let clip ← timeline.clips[k + 1]?
      return .staged (.transition t)
        [before, clip.term config working (k + 1)]

------------------------------------------------------------
-- What the Parts Make
------------------------------------------------------------

variable {graph : RenderGraph}
variable {config : Config}
variable {working : FrameSize}

/- Ramps one after another are the two ramps of a clip. -/
theorem ClipBlur.foldl_stages
    (blur : ClipBlur Float)
    (term : StreamTerm) :
    blur.stages.foldl
        (fun term ramp => term.behind (some ramp)) term =
      (term.behind blur.head).behind blur.tail := by
  rcases blur with ⟨head, tail⟩
  cases head with
  | none =>
      cases tail with
      | none =>
          rfl
      | some second =>
          rfl
  | some first =>
      cases tail with
      | none =>
          rfl
      | some second =>
          rfl

/- Ramps blur the stream before them, one after another. -/
theorem blurNodes_makes
    {i : Nat}
    {source : String}
    {ramps : List (BlurRamp Float)}
    {term : StreamTerm}
    {nodes : List Node}
    (hSource : graph.Makes source term nodes)
    (hNodes :
      (blurNodes i source ramps).1 ⊆ graph.nodes) :
    graph.Makes (blurNodes i source ramps).2
      (ramps.foldl
        (fun term ramp => term.behind (some ramp)) term)
      (nodes ++ (blurNodes i source ramps).1) := by
  induction ramps generalizing source term nodes with
  | nil =>
      simpa [blurNodes] using hSource
  | cons ramp ramps ih =>
      rcases List.cons_subset.mp hNodes with ⟨hNode, hRest⟩
      have hBlur := hSource.of_label hNode rfl
      have hAll := ih hBlur hRest
      rw [List.append_assoc] at hAll
      exact hAll

/- A chain makes the term of its clip. -/
theorem Clip.chain_makes
    {clip : Clip}
    {i : Nat}
    (hNodes :
      (clip.chain config working i).1 ⊆ graph.nodes) :
    graph.Makes (clip.chain config working i).2
      (clip.term config working i)
      (clip.chain config working i).1 := by
  rcases List.cons_subset.mp hNodes with
    ⟨hNormalize, hNodes⟩
  rcases List.cons_subset.mp hNodes with ⟨hMove, hBlurs⟩
  have hNormalized :=
    RenderGraph.Makes.of_input hNormalize rfl
  have hMoved := hNormalized.of_label hMove rfl
  have hChain := blurNodes_makes hMoved hBlurs
  rw [ClipBlur.foldl_stages] at hChain
  exact hChain

namespace Timeline

variable {timeline : Timeline}

theorem getElem?_chains
    (k : Nat) :
    (timeline.chains config working)[k]? =
      timeline.clips[k]?.map fun clip =>
        clip.chain config working k := by
  rw [chains, List.getElem?_mapIdx]

/- The first of the items that are left. -/
theorem drop_eq_cons
    {α : Type}
    {items rest : List α}
    {k : Nat}
    {item : α}
    (hDrop : items.drop k = item :: rest) :
    items[k]? = some item ∧ items.drop (k + 1) = rest := by
  refine ⟨?_, ?_⟩
  · have hFirst : (items.drop k)[0]? = some item := by
      rw [hDrop]
      rfl
    rw [List.getElem?_drop] at hFirst
    exact hFirst
  · rw [← List.drop_drop, hDrop]
    rfl

/-
  Joins go on with the film.  The induction is on the
  transitions that are left, behind those up to `k`.
-/
theorem joinNodes_makes
    {k : Nat}
    {source : String}
    {film : StreamTerm}
    {nodes : List Node}
    {transitions : List (Transition Float)}
    {flows : List (List Node × String)}
    (hFilm :
      timeline.filmUpTo? config working k = some film)
    (hSource : graph.Makes source film nodes)
    (hTransitions :
      timeline.transitions.drop k = transitions)
    (hFlows :
      (timeline.chains config working).drop (k + 1) =
        flows)
    (hLength : transitions.length = flows.length)
    (hChains : flows.flatMap Prod.fst ⊆ graph.nodes)
    (hJoins :
      (joinNodes source
          (transitions.zip (flows.map Prod.snd))).1 ⊆
        graph.nodes) :
    ∃ whole,
      timeline.filmUpTo? config working
          (k + transitions.length) = some whole ∧
        graph.Makes
          (joinNodes source
            (transitions.zip (flows.map Prod.snd))).2
          whole
          (nodes ++ flows.flatMap Prod.fst ++
            (joinNodes source
              (transitions.zip (flows.map Prod.snd))).1)
    := by
  induction transitions
    generalizing k source film nodes flows with
  | nil =>
      have hNone : flows = [] :=
        List.eq_nil_of_length_eq_zero hLength.symm
      subst hNone
      refine ⟨film, hFilm, ?_⟩
      simpa [joinNodes] using hSource
  | cons t transitions ih =>
      cases flows with
      | nil =>
          exact absurd hLength (by simp)
      | cons flow flows =>
          rcases drop_eq_cons hTransitions with
            ⟨hTransition, hLater⟩
          rcases drop_eq_cons hFlows with
            ⟨hFlow, hLaterFlows⟩
          rw [getElem?_chains,
            Option.map_eq_some_iff] at hFlow
          rcases hFlow with ⟨clip, hClip, rfl⟩
          rw [List.flatMap_cons,
            List.append_subset] at hChains
          rcases List.cons_subset.mp hJoins with
            ⟨hNode, hLaterJoins⟩
          have hNext :
              timeline.filmUpTo? config working (k + 1) =
                some
                  (.staged (.transition t)
                    [film,
                      clip.term config working
                        (k + 1)]) := by
            simp [filmUpTo?, hFilm, hTransition, hClip]
          have hJoined :=
            hSource.of_labels (Clip.chain_makes hChains.1)
              hNode rfl
          rcases ih hNext hJoined hLater hLaterFlows
              (Nat.succ.inj hLength) hChains.2
              hLaterJoins with
            ⟨whole, hWhole, hMakes⟩
          refine ⟨whole, ?_, hMakes.of_perm ?_⟩
          · rw [List.length_cons, ← hWhole]
            congr 1
            omega
          · rw [List.flatMap_cons]
            simp only [List.append_assoc,
              List.singleton_append]
            apply List.Perm.append_left
            apply List.Perm.append_left
            exact List.perm_middle.symm

/-
  The graph of a timeline makes the whole film, brought to
  its size, out of all its nodes.
-/
theorem graph_makes
    (timeline : Timeline)
    (config : Config)
    (working : FrameSize)
    (hCount :
      timeline.transitions.length + 1 =
        timeline.clips.length) :
    ∃ film,
      timeline.filmUpTo? config working
          (timeline.clips.length - 1) = some film ∧
        (timeline.graph config working).Makes
          RenderGraph.finalLabel
          (.staged (.resize config.size) [film])
          (timeline.graph config working).nodes := by
  have hNodes := timeline.graph_nodes config working
  have hLength := timeline.length_chainEnds config working
  rw [chainEnds, List.length_map] at hLength
  have hSubset :
      (timeline.chains config working).flatMap Prod.fst ++
          (timeline.joins config working).1 ⊆
        (timeline.graph config working).nodes := by
    rw [hNodes]
    exact List.subset_append_left _ _
  have hFinish :
      ⟨[.label (timeline.joins config working).2],
          .resize config.size, RenderGraph.finalLabel⟩ ∈
        (timeline.graph config working).nodes := by
    rw [hNodes]
    exact List.mem_append_right _ (List.mem_singleton_self _)
  rw [List.append_subset] at hSubset
  rcases hSubset with ⟨hChainNodes, hJoinNodes⟩
  cases hChains : timeline.chains config working with
  | nil =>
      rw [hChains, List.length_nil] at hLength
      omega
  | cons first rest =>
      have hFirst :
          (timeline.chains config working)[0]? =
            some first := by
        rw [hChains]
        rfl
      have hJoins :
          timeline.joins config working =
            joinNodes first.2
              (timeline.transitions.zip
                (rest.map Prod.snd)) := by
        rw [joins, chainEnds, hChains]
        rfl
      rw [hChains, List.length_cons] at hLength
      rw [hChains, List.flatMap_cons,
        List.append_subset] at hChainNodes
      rw [hJoins] at hJoinNodes hFinish
      rw [getElem?_chains, Option.map_eq_some_iff] at hFirst
      rcases hFirst with ⟨clip, hClip, hEq⟩
      have hStart :
          timeline.filmUpTo? config working 0 =
            some (clip.term config working 0) := by
        simp [filmUpTo?, hClip]
      have hClipMakes :
          (timeline.graph config working).Makes first.2
            (clip.term config working 0) first.1 := by
        rw [← hEq] at hChainNodes ⊢
        exact Clip.chain_makes hChainNodes.1
      rcases joinNodes_makes hStart hClipMakes
          List.drop_zero (by rw [hChains]; rfl) (by omega)
          hChainNodes.2 hJoinNodes with
        ⟨film, hFilm, hMakes⟩
      refine ⟨film, ?_, ?_⟩
      · rw [← hFilm]
        congr 1
        omega
      · have hWhole := hMakes.of_label hFinish rfl
        rw [hNodes, hChains, hJoins]
        exact hWhole

/-
  An assembled graph unfolds, from its result on, to the
  film of its timeline and to nothing else.  The film has
  every node of the graph in one place, and the inputs are
  the images of the clips.
-/
theorem assemble_unfolds
    (timeline : Timeline)
    (config : Config)
    (graph : RenderGraph)
    (hGraph : timeline.assemble config = .ok graph) :
    ∃ working film used,
      config.workingSize = .ok working ∧
        timeline.filmUpTo? config working
            (timeline.clips.length - 1) = some film ∧
        (∀ terms nodes,
          graph.Unfolds [.label graph.output] terms nodes ↔
            terms =
                [.staged (.resize config.size) [film]] ∧
              nodes = used) ∧
        used.Perm graph.nodes ∧ graph.nodes.Nodup ∧
        ∀ i : Nat,
          graph.inputs[i]? =
            timeline.clips[i]?.map Clip.image := by
  rcases (timeline.assemble_eq_ok_iff config).mp hGraph with
    ⟨hCount, working, hWorking, rfl, hValid⟩
  rcases timeline.graph_makes config working hCount with
    ⟨film, hFilm, used, hUnfolds, hPerm⟩
  have hNodup :=
    (RenderGraph.isWellWired_of_validate
      hValid).outputs_distinct
  refine ⟨working, film, used, hWorking, hFilm, ?_, hPerm,
    hNodup.of_map _, ?_⟩
  · intro terms nodes
    constructor
    · intro hOther
      exact hUnfolds.unique hNodup hOther
    · rintro ⟨rfl, rfl⟩
      exact hUnfolds
  · intro i
    exact List.getElem?_map

/- The film of two shots uses every node of their graph. -/
theorem assemble_unfolds_couple :
    ∃ timeline s' graph,
      build Shot.couple Config.coarse
          (WordScript.ofList [7]) = .ok (timeline, s') ∧
        timeline.assemble Config.coarse = .ok graph ∧
        ∃ working film used,
          timeline.filmUpTo? Config.coarse working
              (timeline.clips.length - 1) = some film ∧
            graph.Unfolds [.label graph.output]
              [.staged (.resize Config.coarse.size) [film]]
              used ∧
            used.Perm graph.nodes := by
  have hExists :
      ∃ timeline s' graph,
        build Shot.couple Config.coarse
            (WordScript.ofList [7]) = .ok (timeline, s') ∧
          timeline.assemble Config.coarse = .ok graph :=
    ⟨_, _, _, rfl, rfl⟩
  rcases hExists with
    ⟨timeline, s', graph, hBuild, hGraph⟩
  rcases assemble_unfolds timeline Config.coarse graph
      hGraph with
    ⟨working, film, used, _, hFilm, hUnfolds, hPerm, _⟩
  exact ⟨timeline, s', graph, hBuild, hGraph, working, film,
    used, hFilm, (hUnfolds _ _).mpr ⟨rfl, rfl⟩, hPerm⟩

end Timeline

end Slideshow

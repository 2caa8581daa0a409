import Mathlib.Data.List.Nodup
import Slideshow.Graph.Wiring
import Slideshow.Proofs.Outcome

/-
  This file proves that the check of the wiring accepts
  exactly the well-wired graphs.

  The check walks through the nodes and remembers what they
  have defined and read.  What it remembers is a function of
  the nodes alone (`Wiring.withNodes`), so that the walk
  succeeds exactly if every pad is known where it is read
  (`IsOrdered`) and nothing is defined or read twice
  (`Wiring.NoRepeats`).

  Key definitions include:
    * `RenderGraph.IsWellWired`
    * `IsOrdered`

  Main results include:
    * `Wiring.addNodes_eq_ok_iff`
    * `RenderGraph.validate_eq_ok_iff_wiring`
    * `RenderGraph.validate_eq_ok_iff_isWellWired`
-/

namespace Slideshow

------------------------------------------------------------
-- Pads
------------------------------------------------------------

namespace Pad

/- The input file that a pad reads, if it reads one. -/
def input? : Pad → Option Nat
  | .input i => some i
  | .label _ => none

/- The label that a pad reads, if it reads one. -/
def label? : Pad → Option String
  | .input _ => none
  | .label name => some name

theorem input?_eq_some_iff
    {pad : Pad}
    {i : Nat} :
    pad.input? = some i ↔ pad = .input i := by
  cases pad with
  | input j =>
      simp [input?]
  | label name =>
      simp [input?]

theorem label?_eq_some_iff
    {pad : Pad}
    {name : String} :
    pad.label? = some name ↔ pad = .label name := by
  cases pad with
  | input i =>
      simp [label?]
  | label other =>
      simp [label?]

/-
  A pad reads one of `count` inputs or a label that is
  already defined.
-/
def IsKnown
    (count : Nat)
    (defined : List String) :
    Pad → Prop
  | .input i => i < count
  | .label name => name ∈ defined

/- More labels make more pads known. -/
theorem IsKnown.mono
    {count : Nat}
    {smaller larger : List String}
    (hSubset : smaller ⊆ larger)
    {pad : Pad}
    (hKnown : pad.IsKnown count smaller) :
    pad.IsKnown count larger := by
  cases pad with
  | input i =>
      exact hKnown
  | label name =>
      exact hSubset hKnown

end Pad

------------------------------------------------------------
-- What Nodes Read
------------------------------------------------------------

namespace Node

variable {α : Type}
variable {view : Pad → Option α}

/-
  What nodes read, in order, as far as `view` shows it: the
  labels or the inputs.
-/
def reads
    (view : Pad → Option α)
    (nodes : List Node) : List α :=
  (nodes.flatMap inputs).filterMap view

@[simp] theorem reads_nil : reads view [] = [] := rfl

@[simp] theorem reads_cons
    (node : Node)
    (nodes : List Node) :
    reads view (node :: nodes) =
      node.inputs.filterMap view ++ reads view nodes := by
  simp [reads]

@[simp] theorem reads_append
    (first second : List Node) :
    reads view (first ++ second) =
      reads view first ++ reads view second := by
  simp [reads]

/- A thing is read as often as its pad occurs. -/
theorem count_reads
    [DecidableEq α]
    {a : α}
    {pad : Pad}
    (hView : ∀ other, view other = some a ↔ other = pad)
    (nodes : List Node) :
    (reads view nodes).count a =
      (nodes.flatMap inputs).count pad := by
  rw [reads, List.count_filterMap, List.count]
  apply List.countP_congr
  intro other _
  rw [beq_iff_eq, beq_iff_eq]
  exact hView other

theorem count_labels
    (name : String)
    (nodes : List Node) :
    (reads Pad.label? nodes).count name =
      (nodes.flatMap inputs).count (.label name) :=
  count_reads (fun _ => Pad.label?_eq_some_iff) nodes

theorem count_inputs
    (i : Nat)
    (nodes : List Node) :
    (reads Pad.input? nodes).count i =
      (nodes.flatMap inputs).count (.input i) :=
  count_reads (fun _ => Pad.input?_eq_some_iff) nodes

theorem mem_labels
    {name : String}
    {nodes : List Node} :
    name ∈ reads Pad.label? nodes ↔
      .label name ∈ nodes.flatMap inputs := by
  rw [← List.count_pos_iff, count_labels,
    List.count_pos_iff]

end Node

------------------------------------------------------------
-- Order of Nodes
------------------------------------------------------------

/-
  Every pad of every node is known where it is read, when
  the labels in `defined` come before the nodes.
-/
def IsOrdered
    (count : Nat)
    (defined : List String) :
    List Node → Prop
  | [] => True
  | node :: rest =>
      (∀ pad ∈ node.inputs, pad.IsKnown count defined) ∧
        IsOrdered count (defined ++ [node.output]) rest

namespace IsOrdered

variable {count : Nat}

/- Nodes in two parts, the second behind the first. -/
theorem append_iff
    {defined : List String}
    {first second : List Node} :
    IsOrdered count defined (first ++ second) ↔
      IsOrdered count defined first ∧
        IsOrdered count
          (defined ++ first.map Node.output) second := by
  induction first generalizing defined with
  | nil =>
      simp [IsOrdered]
  | cons node first ih =>
      simp [IsOrdered, ih, and_assoc]

/- More labels in front do no harm. -/
theorem mono
    {smaller larger : List String}
    (hSubset : smaller ⊆ larger)
    {nodes : List Node}
    (hOrdered : IsOrdered count smaller nodes) :
    IsOrdered count larger nodes := by
  induction nodes generalizing smaller larger with
  | nil =>
      trivial
  | cons node nodes ih =>
      rcases hOrdered with ⟨hPads, hRest⟩
      refine ⟨?_, ?_⟩
      · intro pad hPad
        exact (hPads pad hPad).mono hSubset
      · apply ih _ hRest
        exact List.append_subset.mpr
          ⟨List.subset_append_of_subset_left _ hSubset,
            List.subset_append_right _ _⟩

/- The order, said of each node and the ones before it. -/
theorem iff_forall_split
    {defined : List String}
    {nodes : List Node} :
    IsOrdered count defined nodes ↔
      ∀ before node after,
        nodes = before ++ node :: after →
          ∀ pad ∈ node.inputs,
            pad.IsKnown count
              (defined ++ before.map Node.output) := by
  constructor
  · intro hOrdered before node after hNodes
    rw [hNodes, append_iff] at hOrdered
    exact hOrdered.2.1
  · intro hSplit
    induction nodes generalizing defined with
    | nil =>
        trivial
    | cons node nodes ih =>
        refine ⟨?_, ih ?_⟩
        · simpa using hSplit [] node nodes rfl
        · intro before other after hNodes
          have hPads :=
            hSplit (node :: before) other after
              (by rw [hNodes, List.cons_append])
          simpa using hPads

end IsOrdered

------------------------------------------------------------
-- The Walk through the Nodes
------------------------------------------------------------

namespace Wiring

variable {count : Nat}
variable {w w' : Wiring}

/- The wiring after some pads are read. -/
def withPads
    (w : Wiring)
    (pads : List Pad) : Wiring :=
  { w with
    consumed := w.consumed ++ pads.filterMap Pad.label?
    inputsRead := w.inputsRead ++ pads.filterMap Pad.input? }

/- The wiring after some nodes are added. -/
def withNodes
    (w : Wiring)
    (nodes : List Node) : Wiring :=
  ⟨w.defined ++ nodes.map Node.output,
    w.consumed ++ Node.reads Pad.label? nodes,
    w.inputsRead ++ Node.reads Pad.input? nodes⟩

/- No label is defined twice, and none is read twice. -/
structure NoRepeats (w : Wiring) : Prop where
  defined : w.defined.Nodup
  consumed : w.consumed.Nodup

/- One more label is no repetition if it is a new one. -/
theorem nodup_append_singleton_iff
    {labels : List String}
    (hNodup : labels.Nodup)
    {label : String} :
    (labels ++ [label]).Nodup ↔ label ∉ labels := by
  rw [← List.concat_eq_append, List.nodup_concat]
  exact and_iff_left hNodup

theorem withPads_append
    (w : Wiring)
    (first second : List Pad) :
    (w.withPads first).withPads second =
      w.withPads (first ++ second) := by
  simp [withPads]

theorem withNodes_append
    (w : Wiring)
    (first second : List Node) :
    (w.withNodes first).withNodes second =
      w.withNodes (first ++ second) := by
  simp [withNodes]

theorem NoRepeats.of_withNodes
    {nodes : List Node}
    (hAfter : (w.withNodes nodes).NoRepeats) :
    w.NoRepeats :=
  ⟨hAfter.defined.of_append_left,
    hAfter.consumed.of_append_left⟩

/- When one pad can be read. -/
theorem readPad_eq_ok_iff
    (hConsumed : w.consumed.Nodup)
    {node : String}
    {pad : Pad} :
    readPad count node w pad = .ok w' ↔
      pad.IsKnown count w.defined ∧
        (w.withPads [pad]).consumed.Nodup ∧
        w' = w.withPads [pad] := by
  cases pad with
  | input i =>
      by_cases hInput : i < count
      · simp [readPad, withPads, Pad.IsKnown, Pad.label?,
          Pad.input?, List.filterMap_cons, hInput,
          hConsumed, eq_comm]
      · simp [readPad, Pad.IsKnown, hInput]
  | label name =>
      have hNodup :
          (w.consumed ++ [name]).Nodup ↔
            name ∉ w.consumed :=
        nodup_append_singleton_iff hConsumed
      by_cases hDefined : name ∈ w.defined
      · by_cases hRead : name ∈ w.consumed
        · simp [readPad, withPads, Pad.label?,
            List.filterMap_cons, hNodup, hDefined, hRead]
        · simp [readPad, withPads, Pad.IsKnown, Pad.label?,
            Pad.input?, List.filterMap_cons, hNodup,
            hDefined, hRead, eq_comm]
      · simp [readPad, Pad.IsKnown, hDefined]

/- When the pads of a node can be read in order. -/
theorem readPads_eq_ok_iff
    (hConsumed : w.consumed.Nodup)
    {node : String}
    {pads : List Pad} :
    pads.foldlM (readPad count node) w = .ok w' ↔
      (∀ pad ∈ pads, pad.IsKnown count w.defined) ∧
        (w.withPads pads).consumed.Nodup ∧
        w' = w.withPads pads := by
  induction pads generalizing w with
  | nil =>
      simp [withPads, hConsumed, pure, Except.pure, eq_comm]
  | cons pad pads ih =>
      rw [List.foldlM_cons, Outcome.bind_eq_ok_iff]
      constructor
      · rintro ⟨_, hFirst, hRest⟩
        rw [readPad_eq_ok_iff hConsumed] at hFirst
        rcases hFirst with ⟨hKnown, hNodup, rfl⟩
        rw [ih hNodup, withPads_append] at hRest
        rcases hRest with ⟨hKnownRest, hNodupRest, hAfter⟩
        refine ⟨?_, hNodupRest, hAfter⟩
        exact List.forall_mem_cons.mpr ⟨hKnown, hKnownRest⟩
      · rintro ⟨hKnown, hNodup, hAfter⟩
        rw [List.forall_mem_cons] at hKnown
        have hAll :
            ((w.withPads [pad]).withPads
              pads).consumed.Nodup := by
          rw [withPads_append]
          exact hNodup
        have hFirst :
            (w.withPads [pad]).consumed.Nodup :=
          hAll.of_append_left
        refine ⟨w.withPads [pad], ?_, ?_⟩
        · rw [readPad_eq_ok_iff hConsumed]
          exact ⟨hKnown.1, hFirst, rfl⟩
        · rw [ih hFirst, withPads_append]
          exact ⟨hKnown.2, hNodup, hAfter⟩

/-
  When a node can be added.  This is all that a step of the
  walk does.
-/
theorem addNode_eq_ok_iff
    (hFresh : w.NoRepeats)
    {node : Node} :
    w.addNode count node = .ok w' ↔
      (∀ pad ∈ node.inputs, pad.IsKnown count w.defined) ∧
        (w.withNodes [node]).NoRepeats ∧
        w' = w.withNodes [node] := by
  have hNodup :
      (w.defined ++ [node.output]).Nodup ↔
        node.output ∉ w.defined :=
    nodup_append_singleton_iff hFresh.defined
  unfold addNode
  rw [Outcome.bind_eq_ok_iff]
  constructor
  · rintro ⟨_, hPads, hLabel⟩
    rw [readPads_eq_ok_iff hFresh.consumed] at hPads
    rcases hPads with ⟨hKnown, hConsumed, rfl⟩
    by_cases hDefined : node.output ∈ w.defined
    · simp [withPads, hDefined] at hLabel
    · refine ⟨hKnown, ⟨hNodup.mpr hDefined, ?_⟩, ?_⟩
      · simpa [withNodes, withPads] using hConsumed
      · simpa [withNodes, withPads, hDefined, pure,
          Except.pure, eq_comm] using hLabel
  · rintro ⟨hKnown, hAfter, rfl⟩
    refine ⟨w.withPads node.inputs, ?_, ?_⟩
    · rw [readPads_eq_ok_iff hFresh.consumed]
      refine ⟨hKnown, ?_, rfl⟩
      simpa [withNodes, withPads] using hAfter.consumed
    · have hDefined : node.output ∉ w.defined :=
        hNodup.mp hAfter.defined
      simp [withNodes, withPads, hDefined, pure,
        Except.pure]

/-
  When nodes can be added in order, and what is known after
  them.
-/
theorem addNodes_eq_ok_iff
    (hFresh : w.NoRepeats)
    {nodes : List Node} :
    w.addNodes count nodes = .ok w' ↔
      IsOrdered count w.defined nodes ∧
        (w.withNodes nodes).NoRepeats ∧
        w' = w.withNodes nodes := by
  unfold addNodes
  induction nodes generalizing w with
  | nil =>
      have hNone : w.withNodes [] = w := by
        simp [withNodes]
      simp [IsOrdered, hNone, hFresh, pure, Except.pure,
        eq_comm]
  | cons node nodes ih =>
      rw [List.foldlM_cons, Outcome.bind_eq_ok_iff]
      constructor
      · rintro ⟨_, hFirst, hRest⟩
        rw [addNode_eq_ok_iff hFresh] at hFirst
        rcases hFirst with ⟨hKnown, hStep, rfl⟩
        rw [ih hStep, withNodes_append] at hRest
        rcases hRest with ⟨hOrdered, hAfter, hEq⟩
        exact ⟨⟨hKnown, hOrdered⟩, hAfter, hEq⟩
      · rintro ⟨⟨hKnown, hOrdered⟩, hAfter, hEq⟩
        have hAppend :
            (w.withNodes [node]).withNodes nodes =
              w.withNodes (node :: nodes) :=
          withNodes_append w [node] nodes
        have hStep : (w.withNodes [node]).NoRepeats := by
          rw [← hAppend] at hAfter
          exact hAfter.of_withNodes
        refine ⟨w.withNodes [node], ?_, ?_⟩
        · rw [addNode_eq_ok_iff hFresh]
          exact ⟨hKnown, hStep, rfl⟩
        · rw [ih hStep, hAppend]
          exact ⟨hOrdered, hAfter, hEq⟩

/- When the wiring in all is right. -/
theorem conclude_eq_ok_iff
    {output : String} :
    w.conclude count output = .ok () ↔
      (∀ i < count, w.inputsRead.count i = 1) ∧
        ∀ label ∈ w.defined,
          label ∈ w.consumed ↔ label ≠ output := by
  have hInputs :
      w.wrongInput? count = none ↔
        ∀ i < count, w.inputsRead.count i = 1 := by
    simp [wrongInput?]
  have hLabels :
      w.wrongLabel? output = none ↔
        ∀ label ∈ w.defined,
          label ∈ w.consumed ↔ label ≠ output := by
    rw [wrongLabel?, List.find?_eq_none]
    apply forall₂_congr
    intro label _
    by_cases hOutput : label = output
    · simp [hOutput]
    · have hNe : (label == output) = false :=
        beq_eq_false_iff_ne.mpr hOutput
      simp [hNe, hOutput]
  rw [← hInputs, ← hLabels]
  unfold conclude
  cases w.wrongInput? count with
  | some i =>
      simp
  | none =>
      cases w.wrongLabel? output with
      | some label =>
          simp
      | none =>
          simp

end Wiring

------------------------------------------------------------
-- The Check
------------------------------------------------------------

namespace RenderGraph

variable {graph : RenderGraph}

/- All pads of a graph, in order. -/
def pads (graph : RenderGraph) : List Pad :=
  graph.nodes.flatMap Node.inputs

/- All labels that a graph defines, in order. -/
def outputs (graph : RenderGraph) : List String :=
  graph.nodes.map Node.output

/- What the check of a graph remembers in the end. -/
def wiring (graph : RenderGraph) : Wiring :=
  Wiring.empty.withNodes graph.nodes

@[simp] theorem wiring_defined :
    graph.wiring.defined = graph.outputs := by
  simp [wiring, outputs, Wiring.withNodes, Wiring.empty]

@[simp] theorem wiring_consumed :
    graph.wiring.consumed =
      Node.reads Pad.label? graph.nodes := by
  simp [wiring, Wiring.withNodes, Wiring.empty]

@[simp] theorem wiring_inputsRead :
    graph.wiring.inputsRead =
      Node.reads Pad.input? graph.nodes := by
  simp [wiring, Wiring.withNodes, Wiring.empty]

/- The check in terms of what it remembers. -/
theorem validate_eq_ok_iff_wiring :
    graph.validate = .ok () ↔
      IsOrdered graph.inputs.length [] graph.nodes ∧
        graph.wiring.NoRepeats ∧
        (∀ i < graph.inputs.length,
          graph.wiring.inputsRead.count i = 1) ∧
        ∀ label ∈ graph.wiring.defined,
          label ∈ graph.wiring.consumed ↔
            label ≠ graph.output := by
  have hFresh : Wiring.empty.NoRepeats :=
    ⟨List.nodup_nil, List.nodup_nil⟩
  unfold validate
  rw [Outcome.bind_eq_ok_iff]
  constructor
  · rintro ⟨_, hNodes, hWhole⟩
    rw [Wiring.addNodes_eq_ok_iff hFresh] at hNodes
    rcases hNodes with ⟨hOrdered, hNoRepeats, rfl⟩
    rw [Wiring.conclude_eq_ok_iff] at hWhole
    exact ⟨hOrdered, hNoRepeats, hWhole⟩
  · rintro ⟨hOrdered, hNoRepeats, hWhole⟩
    refine ⟨graph.wiring, ?_, ?_⟩
    · rw [Wiring.addNodes_eq_ok_iff hFresh]
      exact ⟨hOrdered, hNoRepeats, rfl⟩
    · rw [Wiring.conclude_eq_ok_iff]
      exact hWhole

------------------------------------------------------------
-- Well-Wired Graphs
------------------------------------------------------------

/-
  A graph is well wired if every pad reads an input that
  exists or the label of an earlier node, every input is
  read by one pad, no label is read twice or defined twice,
  and the labels that are read are those of all nodes but
  the result.
-/
structure IsWellWired (graph : RenderGraph) : Prop where
  input_exists :
    ∀ i, .input i ∈ graph.pads → i < graph.inputs.length
  input_read_once :
    ∀ i < graph.inputs.length,
      graph.pads.count (.input i) = 1
  label_defined_before :
    ∀ before node after,
      graph.nodes = before ++ node :: after →
        ∀ name, .label name ∈ node.inputs →
          ∃ source ∈ before, source.output = name
  label_read_once :
    ∀ name, graph.pads.count (.label name) ≤ 1
  outputs_distinct : graph.outputs.Nodup
  read_iff_ne_output :
    ∀ node ∈ graph.nodes,
      .label node.output ∈ graph.pads ↔
        node.output ≠ graph.output

/-
  The order of nodes puts labels before their readers and
  keeps to the inputs that exist.
-/
theorem isOrdered_iff_defined_before :
    IsOrdered graph.inputs.length [] graph.nodes ↔
      (∀ i, .input i ∈ graph.pads →
        i < graph.inputs.length) ∧
      ∀ before node after,
        graph.nodes = before ++ node :: after →
          ∀ name, .label name ∈ node.inputs →
            ∃ source ∈ before, source.output = name := by
  rw [IsOrdered.iff_forall_split]
  constructor
  · intro hKnown
    refine ⟨?_, ?_⟩
    · intro i hPad
      rcases List.mem_flatMap.mp hPad with
        ⟨node, hNode, hInput⟩
      rcases List.append_of_mem hNode with
        ⟨before, after, hNodes⟩
      exact hKnown before node after hNodes _ hInput
    · intro before node after hNodes name hLabel
      have hDefined :=
        hKnown before node after hNodes _ hLabel
      simpa [Pad.IsKnown] using hDefined
  · rintro ⟨hInputs, hLabels⟩ before node after hNodes
    intro pad hPad
    cases pad with
    | input i =>
        apply hInputs
        apply List.mem_flatMap.mpr
        exact ⟨node, by simp [hNodes], hPad⟩
    | label name =>
        have hBefore :=
          hLabels before node after hNodes name hPad
        simpa [Pad.IsKnown] using hBefore

/- A graph that passes the check is well wired. -/
theorem isWellWired_of_validate
    (hValid : graph.validate = .ok ()) :
    graph.IsWellWired := by
  rw [validate_eq_ok_iff_wiring,
    isOrdered_iff_defined_before] at hValid
  rcases hValid with
    ⟨⟨hInputs, hBefore⟩, hNoRepeats, hOnce, hRead⟩
  have hDefined := hNoRepeats.defined
  have hConsumed := hNoRepeats.consumed
  rw [wiring_defined] at hDefined hRead
  rw [wiring_consumed] at hConsumed hRead
  rw [wiring_inputsRead] at hOnce
  refine ⟨hInputs, ?_, hBefore, ?_, hDefined, ?_⟩
  · intro i hi
    rw [pads, ← Node.count_inputs]
    exact hOnce i hi
  · intro name
    rw [pads, ← Node.count_labels]
    exact List.nodup_iff_count_le_one.mp hConsumed name
  · intro node hNode
    rw [pads, ← Node.mem_labels]
    exact hRead _ (List.mem_map_of_mem hNode)

/- A well-wired graph passes the check. -/
theorem validate_of_isWellWired
    (hWired : graph.IsWellWired) :
    graph.validate = .ok () := by
  rw [validate_eq_ok_iff_wiring,
    isOrdered_iff_defined_before, wiring_defined,
    wiring_consumed, wiring_inputsRead]
  refine
    ⟨⟨hWired.input_exists, hWired.label_defined_before⟩,
      ⟨?_, ?_⟩, ?_, ?_⟩
  · rw [wiring_defined]
    exact hWired.outputs_distinct
  · rw [wiring_consumed, List.nodup_iff_count_le_one]
    intro name
    rw [Node.count_labels]
    exact hWired.label_read_once name
  · intro i hi
    rw [Node.count_inputs]
    exact hWired.input_read_once i hi
  · intro label hLabel
    rcases List.mem_map.mp hLabel with ⟨node, hNode, rfl⟩
    rw [Node.mem_labels]
    exact hWired.read_iff_ne_output node hNode

/-
  The check accepts exactly the well-wired graphs, among all
  graphs, however they were made.
-/
theorem validate_eq_ok_iff_isWellWired
    (graph : RenderGraph) :
    graph.validate = .ok () ↔ graph.IsWellWired :=
  ⟨isWellWired_of_validate, validate_of_isWellWired⟩

end RenderGraph

end Slideshow

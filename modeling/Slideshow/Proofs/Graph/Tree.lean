import Mathlib.Logic.Relation
import Slideshow.Proofs.Graph.Wiring

/-
  This file proves that a graph that passes the check is one
  tree: from every node the streams lead to the last node,
  which alone defines the result.

  The check looks at labels only.  That every walk ends at
  the last node follows from three facts: a label is read
  behind the node that defines it (`feeds_lt`), by one node
  at most (`feeds_unique`), and by some node unless it is
  the result (`exists_feeds_iff`).

  Key definitions include:
    * `RenderGraph.Feeds`
    * `RenderGraph.IsTreeAt`

  Main results include:
    * `RenderGraph.isTreeAt_last_of_validate`
-/

namespace Slideshow

namespace RenderGraph

variable {graph : RenderGraph}

------------------------------------------------------------
-- Readers
------------------------------------------------------------

/- The node at one position reads a pad. -/
def ReadsPad
    (graph : RenderGraph)
    (pad : Pad)
    (k : Nat) : Prop :=
  ∃ node, graph.nodes[k]? = some node ∧ pad ∈ node.inputs

theorem ReadsPad.lt_length
    {pad : Pad}
    {k : Nat}
    (hReads : graph.ReadsPad pad k) :
    k < graph.nodes.length := by
  rcases hReads with ⟨reader, hReader, _⟩
  exact (List.getElem?_eq_some_iff.mp hReader).1

/-
  The node at one position defines the label that the node
  at another position reads.
-/
def Feeds
    (graph : RenderGraph)
    (j k : Nat) : Prop :=
  ∃ source,
    graph.nodes[j]? = some source ∧
      graph.ReadsPad (.label source.output) k

theorem Feeds.lt_length
    {j k : Nat}
    (hFeeds : graph.Feeds j k) :
    k < graph.nodes.length := by
  rcases hFeeds with ⟨_, _, hReads⟩
  exact hReads.lt_length

/- A pad of a graph is read at some position. -/
theorem exists_readsPad_iff
    {pad : Pad} :
    (∃ k, graph.ReadsPad pad k) ↔ pad ∈ graph.pads := by
  constructor
  · rintro ⟨k, node, hNode, hPad⟩
    apply List.mem_flatMap.mpr
    exact ⟨node, List.mem_of_getElem? hNode, hPad⟩
  · intro hPad
    rcases List.mem_flatMap.mp hPad with ⟨node, hNode, hPad⟩
    rcases List.getElem?_of_mem hNode with ⟨k, hk⟩
    exact ⟨k, node, hk, hPad⟩

/- A pad that two nodes read occurs twice. -/
theorem two_le_count_of_readsPad
    {pad : Pad}
    {j k : Nat}
    (hFirst : graph.ReadsPad pad j)
    (hSecond : graph.ReadsPad pad k)
    (hLt : j < k) :
    2 ≤ graph.pads.count pad := by
  rcases hFirst with ⟨first, hj, hFirstPad⟩
  rcases hSecond with ⟨second, hk, hSecondPad⟩
  have hFront :
      0 < ((graph.nodes.take k).flatMap
        Node.inputs).count pad := by
    apply List.count_pos_iff.mpr
    apply List.mem_flatMap.mpr
    refine ⟨first, ?_, hFirstPad⟩
    apply List.mem_of_getElem? (i := j)
    rw [List.getElem?_take_of_lt hLt, hj]
  have hBack :
      0 < ((graph.nodes.drop k).flatMap
        Node.inputs).count pad := by
    apply List.count_pos_iff.mpr
    apply List.mem_flatMap.mpr
    refine ⟨second, ?_, hSecondPad⟩
    apply List.mem_of_getElem? (i := 0)
    rw [List.getElem?_drop, Nat.add_zero, hk]
  have hSplit :
      graph.pads =
        (graph.nodes.take k).flatMap Node.inputs ++
          (graph.nodes.drop k).flatMap Node.inputs := by
    rw [← List.flatMap_append, List.take_append_drop, pads]
  rw [hSplit, List.count_append]
  omega

/- A pad that occurs once at most has one reader at most. -/
theorem readsPad_unique
    {pad : Pad}
    (hOnce : graph.pads.count pad ≤ 1)
    {j k : Nat}
    (hFirst : graph.ReadsPad pad j)
    (hSecond : graph.ReadsPad pad k) :
    j = k := by
  by_contra hNe
  rcases Nat.lt_or_gt_of_ne hNe with hLt | hGt
  · have hTwice :=
      two_le_count_of_readsPad hFirst hSecond hLt
    omega
  · have hTwice :=
      two_le_count_of_readsPad hSecond hFirst hGt
    omega

------------------------------------------------------------
-- Streams in Well-Wired Graphs
------------------------------------------------------------

namespace IsWellWired

variable (hWired : graph.IsWellWired)
include hWired

/- Nodes with the same label stand in the same place. -/
theorem position_unique
    {j k : Nat}
    {first second : Node}
    (hFirst : graph.nodes[j]? = some first)
    (hSecond : graph.nodes[k]? = some second)
    (hOutput : first.output = second.output) :
    j = k := by
  have hLength : j < graph.outputs.length := by
    rw [outputs, List.length_map]
    exact (List.getElem?_eq_some_iff.mp hFirst).1
  apply (List.getElem?_inj hLength
    hWired.outputs_distinct).mp
  simp [outputs, hFirst, hSecond, hOutput]

/- A label is read behind the node that defines it. -/
theorem feeds_lt
    {j k : Nat}
    (hFeeds : graph.Feeds j k) :
    j < k := by
  rcases hFeeds with ⟨source, hj, reader, hk, hPad⟩
  have hLength : k < graph.nodes.length :=
    (List.getElem?_eq_some_iff.mp hk).1
  have hSplit :
      graph.nodes =
        graph.nodes.take k ++
          reader :: graph.nodes.drop (k + 1) := by
    rw [← (List.getElem?_eq_some_iff.mp hk).2,
      List.getElem_cons_drop, List.take_append_drop]
  rcases hWired.label_defined_before _ _ _ hSplit _ hPad
    with ⟨other, hOther, hOutput⟩
  rcases List.getElem?_of_mem hOther with ⟨i, hi⟩
  have hBefore : i < k := by
    have hTake := (List.getElem?_eq_some_iff.mp hi).1
    rw [List.length_take] at hTake
    omega
  rw [List.getElem?_take_of_lt hBefore] at hi
  have hSame : i = j :=
    hWired.position_unique hi hj hOutput
  omega

/- A node has one reader at most. -/
theorem feeds_unique
    {j k l : Nat}
    (hFirst : graph.Feeds j k)
    (hSecond : graph.Feeds j l) :
    k = l := by
  rcases hFirst with ⟨source, hj, hk⟩
  rcases hSecond with ⟨other, hOther, hl⟩
  have hSame : other = source := by
    rw [hj] at hOther
    exact (Option.some.inj hOther).symm
  subst hSame
  exact readsPad_unique (hWired.label_read_once _) hk hl

/- A node has a reader exactly if it is not the result. -/
theorem exists_feeds_iff
    {j : Nat}
    {node : Node}
    (hNode : graph.nodes[j]? = some node) :
    (∃ k, graph.Feeds j k) ↔ node.output ≠ graph.output := by
  rw [← hWired.read_iff_ne_output node
    (List.mem_of_getElem? hNode), ← exists_readsPad_iff]
  constructor
  · rintro ⟨k, source, hSource, hReads⟩
    rw [hNode] at hSource
    rw [Option.some.inj hSource]
    exact ⟨k, hReads⟩
  · rintro ⟨k, hReads⟩
    exact ⟨k, node, hNode, hReads⟩

/- The last node has no reader. -/
theorem not_feeds_of_last
    {j : Nat}
    (hLast : j + 1 = graph.nodes.length)
    (k : Nat) :
    ¬ graph.Feeds j k := by
  intro hFeeds
  have hLt : j < k := hWired.feeds_lt hFeeds
  have hLength : k < graph.nodes.length := hFeeds.lt_length
  omega

/- The last node is the one that defines the result. -/
theorem output_eq_iff_last
    {j : Nat}
    {node : Node}
    (hNode : graph.nodes[j]? = some node) :
    node.output = graph.output ↔
      j + 1 = graph.nodes.length := by
  have hOfLast :
      ∀ k last,
        graph.nodes[k]? = some last →
          k + 1 = graph.nodes.length →
            last.output = graph.output := by
    intro k last hk hLast
    by_contra hOutput
    rcases (hWired.exists_feeds_iff hk).mpr hOutput with
      ⟨l, hFeeds⟩
    exact hWired.not_feeds_of_last hLast l hFeeds
  have hLength : j < graph.nodes.length :=
    (List.getElem?_eq_some_iff.mp hNode).1
  constructor
  · intro hOutput
    have hPosition :
        graph.nodes.length - 1 < graph.nodes.length := by
      omega
    have hLast :
        graph.nodes[graph.nodes.length - 1].output =
          graph.output :=
      hOfLast _ _ (List.getElem?_eq_getElem hPosition)
        (by omega)
    have hSame : j = graph.nodes.length - 1 :=
      hWired.position_unique hNode
        (List.getElem?_eq_getElem hPosition)
        (hOutput.trans hLast.symm)
    omega
  · exact hOfLast j node hNode

/- Every other node has a reader. -/
theorem exists_feeds_of_not_last
    {j : Nat}
    (hj : j < graph.nodes.length)
    (hNotLast : j + 1 ≠ graph.nodes.length) :
    ∃ k, graph.Feeds j k := by
  have hNode : graph.nodes[j]? = some graph.nodes[j] :=
    List.getElem?_eq_getElem hj
  rw [hWired.exists_feeds_iff hNode, Ne,
    hWired.output_eq_iff_last hNode]
  exact hNotLast

/-
  From every node the streams lead to the last one.  The
  induction is on the number of nodes behind.
-/
theorem reaches_last
    {j root : Nat}
    (hRoot : root + 1 = graph.nodes.length)
    (hj : j < graph.nodes.length) :
    Relation.ReflTransGen graph.Feeds j root := by
  induction hBehind : graph.nodes.length - j
    using Nat.strongRecOn generalizing j with
  | ind behind ih =>
      by_cases hLast : j = root
      · rw [hLast]
      · rcases hWired.exists_feeds_of_not_last hj (by omega)
          with ⟨k, hFeeds⟩
        have hLt : j < k := hWired.feeds_lt hFeeds
        have hk : k < graph.nodes.length :=
          hFeeds.lt_length
        exact .head hFeeds
          (ih (graph.nodes.length - k) (by omega) hk rfl)

/- Along streams, positions grow. -/
theorem lt_of_transGen
    {j k : Nat}
    (hPath : Relation.TransGen graph.Feeds j k) :
    j < k := by
  induction hPath with
  | single hFeeds =>
      exact hWired.feeds_lt hFeeds
  | tail _ hFeeds ih =>
      exact Nat.lt_trans ih (hWired.feeds_lt hFeeds)

end IsWellWired

------------------------------------------------------------
-- Trees
------------------------------------------------------------

/-
  A graph is a tree whose root is the node at a position:
  the root alone defines the result, and nobody reads it;
  every other node has exactly one reader, every input has
  exactly one, and from all of them the readers lead to the
  root; no walk comes back to where it was.
-/
structure IsTreeAt
    (graph : RenderGraph)
    (root : Nat) : Prop where
  root_exists : root < graph.nodes.length
  output_iff_root :
    ∀ k node,
      graph.nodes[k]? = some node →
        (node.output = graph.output ↔ k = root)
  root_unread : ∀ k, ¬ graph.Feeds root k
  reader_unique :
    ∀ j < graph.nodes.length, j ≠ root →
      ∃! k, graph.Feeds j k
  node_reaches_root :
    ∀ j < graph.nodes.length,
      Relation.ReflTransGen graph.Feeds j root
  input_reaches_root :
    ∀ i < graph.inputs.length,
      ∃ k,
        (∀ l, graph.ReadsPad (.input i) l ↔ l = k) ∧
          Relation.ReflTransGen graph.Feeds k root
  acyclic : ∀ k, ¬ Relation.TransGen graph.Feeds k k

/-
  A graph with a node that passes the check is a tree at its
  last node.
-/
theorem isTreeAt_last_of_validate
    (graph : RenderGraph)
    (hNodes : graph.nodes ≠ [])
    (hValid : graph.validate = .ok ()) :
    graph.IsTreeAt (graph.nodes.length - 1) := by
  have hWired : graph.IsWellWired :=
    isWellWired_of_validate hValid
  have hLength : 0 < graph.nodes.length :=
    List.length_pos_iff.mpr hNodes
  have hRoot :
      graph.nodes.length - 1 + 1 = graph.nodes.length := by
    omega
  refine ⟨by omega, ?_, ?_, ?_, ?_, ?_, ?_⟩
  · intro k node hNode
    rw [hWired.output_eq_iff_last hNode]
    omega
  · exact hWired.not_feeds_of_last hRoot
  · intro j hj hNe
    rcases hWired.exists_feeds_of_not_last hj (by omega)
      with ⟨k, hFeeds⟩
    refine ⟨k, hFeeds, ?_⟩
    intro l hOther
    exact hWired.feeds_unique hOther hFeeds
  · intro j hj
    exact hWired.reaches_last hRoot hj
  · intro i hi
    have hOnce := hWired.input_read_once i hi
    have hPad : .input i ∈ graph.pads := by
      apply List.count_pos_iff.mp
      omega
    rcases exists_readsPad_iff.mpr hPad with ⟨k, hReads⟩
    refine ⟨k, ?_, ?_⟩
    · intro l
      constructor
      · intro hOther
        exact readsPad_unique (Nat.le_of_eq hOnce) hOther
          hReads
      · rintro rfl
        exact hReads
    · exact hWired.reaches_last hRoot hReads.lt_length
  · intro k hCycle
    exact Nat.lt_irrefl k (hWired.lt_of_transGen hCycle)

/- Two images, joined by one transition. -/
def fork : RenderGraph where
  inputs := ["a.png", "b.png"]
  nodes :=
    [⟨[.input 0], .normalize ⟨4, 4⟩ "yuv420p", "a"⟩,
      ⟨[.input 1], .normalize ⟨4, 4⟩ "yuv420p", "b"⟩,
      ⟨[.label "a", .label "b"],
        .transition ⟨0, .fade, 1.0, 2.0⟩, "ab"⟩,
      ⟨[.label "ab"], .resize ⟨2, 2⟩, "final"⟩]
  output := "final"
  totalDuration := 5.0
  audio := none

/- Two images joined by a transition make a tree. -/
theorem fork_isTreeAt :
    fork.nodes ≠ [] ∧ fork.validate = .ok () ∧
      fork.IsTreeAt 3 :=
  ⟨List.cons_ne_nil _ _, rfl,
    isTreeAt_last_of_validate fork (List.cons_ne_nil _ _)
      rfl⟩

end RenderGraph

end Slideshow

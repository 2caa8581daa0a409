import Slideshow.Proofs.Expr.Lower
import Slideshow.Proofs.Graph.Fingerprint
import Slideshow.Proofs.Numeral
import Slideshow.Proofs.Text.Separator

/-
  This file proves that the filter text of a graph tells its
  wiring: which nodes there are, in which order, what each
  of them reads, the filter it applies, and its label.

  A reader parts the text at semicolons into nodes, and each
  node at closing brackets into its pads and the rest.  This
  recovers the nodes since no filter contains a bracket or a
  semicolon (`Stage.filterText_isBare`), whatever numbers
  and expressions it is made of, and since a colon tells an
  input from a label (`Pad.read?_name`).

  Key definitions include:
    * `FilterText.IsBare`
    * `RenderGraph.HasPlainNames`
    * `WrittenNode`
    * `WrittenNode.readAll?`

  Main results include:
    * `Stage.filterText_isBare`
    * `Node.read?_filterText`
    * `RenderGraph.readAll?_filterText`
    * `RenderGraph.isWrittenLike_of_filterText_eq`
-/

namespace Slideshow

------------------------------------------------------------
-- Texts without Signs
------------------------------------------------------------

namespace FilterText

/- The signs between nodes and around pads and labels. -/
def isSign (c : Char) : Bool :=
  c == '[' || c == ']' || c == ';'

/- A text without such signs. -/
def IsBare (cs : List Char) : Prop :=
  ∀ c ∈ cs, isSign c = false

instance (cs : List Char) : Decidable (IsBare cs) :=
  List.decidableBAll _ cs

@[simp] theorem isBare_append_iff
    (cs ds : List Char) :
    IsBare (cs ++ ds) ↔ IsBare cs ∧ IsBare ds :=
  List.forall_mem_append

@[simp] theorem isBare_cons_iff
    (c : Char)
    (cs : List Char) :
    IsBare (c :: cs) ↔ isSign c = false ∧ IsBare cs :=
  List.forall_mem_cons

@[simp] theorem isBare_nil : IsBare [] :=
  fun _ hc => absurd hc List.not_mem_nil

theorem IsBare.not_mem
    {cs : List Char}
    {c : Char}
    (hBare : IsBare cs)
    (hSign : isSign c = true) :
    c ∉ cs := by
  intro hc
  rw [hBare c hc] at hSign
  cases hSign

theorem isSign_of_isDigit
    {c : Char}
    (hDigit : c.isDigit = true) :
    isSign c = false := by
  rw [Bool.eq_false_iff]
  intro hSign
  simp only [isSign, Bool.or_eq_true, beq_iff_eq] at hSign
  rcases hSign with (rfl | rfl) | rfl
  all_goals exact absurd hDigit (by decide)

theorem isBare_write (n : Nat) :
    IsBare (Numeral.write n).toList := by
  intro c hc
  exact isSign_of_isDigit (Numeral.isDigit_of_mem_write hc)

/- Decimals are written without signs. -/
theorem isBare_of_isMagnitude
    {cs : List Char}
    (hMagnitude : Formula.IsMagnitude cs) :
    IsBare cs := by
  have hDigits {ds : List Char}
      (hAll : Formula.IsDigits ds) : IsBare ds :=
    fun d hd => isSign_of_isDigit (hAll.digits d hd)
  cases hMagnitude with
  | whole hWhole => exact hDigits hWhole
  | fraction hWhole hFraction =>
      rw [isBare_append_iff, isBare_cons_iff]
      exact ⟨hDigits hWhole, rfl, hDigits hFraction⟩

/- A minus in front of a text is no sign. -/
theorem isBare_signed
    {negative : Bool}
    {cs : List Char}
    (hBare : IsBare cs) :
    IsBare (Decimal.signed negative cs) := by
  cases negative with
  | false => exact hBare
  | true => exact (isBare_cons_iff '-' cs).mpr ⟨rfl, hBare⟩

/- Doubles are written without signs, finite or not. -/
theorem isBare_plain (x : Float) :
    IsBare (Decimal.plain x).toList := by
  rw [Decimal.plain, String.toList_ofList]
  cases Binary.ofFloat x with
  | nan => decide
  | infinite negative => exact isBare_signed (by decide)
  | finite negative m q =>
      apply isBare_signed
      split
      · decide
      · exact isBare_of_isMagnitude
          (Decimal.isMagnitude_positional _)

theorem isBare_parenthesize
    {needed : Bool}
    {cs : List Char}
    (hBare : IsBare cs) :
    IsBare (Expr.parenthesize needed cs) := by
  cases needed with
  | false => exact hBare
  | true => simp [Expr.parenthesize, hBare, isSign]

/- Expressions are written without signs. -/
theorem isBare_lower
    (frames : UInt64)
    (e : Expr Float) :
    IsBare (e.lower frames).toList := by
  rw [Expr.lower, String.toList_ofList]
  induction e with
  | const c =>
      exact isBare_parenthesize (isBare_plain c)
  | var v =>
      cases v with
      | progress =>
          rw [Expr.chars, Expr.variableChars,
            isBare_append_iff, isBare_append_iff]
          exact ⟨⟨by decide, isBare_write _⟩, by decide⟩
      | inputWidth => exact (by decide : IsBare ['i', 'w'])
      | inputHeight => exact (by decide : IsBare ['i', 'h'])
      | zoom => exact (by decide : IsBare ['z', 'o', 'o', 'm'])
  | binary op left right ihLeft ihRight =>
      have hSymbol : isSign op.symbol = false := by
        cases op <;> rfl
      rw [Expr.chars, isBare_append_iff, isBare_cons_iff]
      exact ⟨isBare_parenthesize ihLeft, hSymbol,
        isBare_parenthesize ihRight⟩

theorem isBare_secondsText (x : Float) :
    IsBare (secondsText x).toList :=
  isBare_plain _

theorem isBare_frameSize (size : FrameSize) :
    IsBare size.filterText.toList ∧
      IsBare size.text.toList := by
  unfold FrameSize.filterText FrameSize.text
  simp only [String.toList_append, isBare_append_iff,
    isBare_write, and_true, true_and]
  decide

theorem isBare_frameRate (rate : FrameRate) :
    IsBare rate.text.toList := by
  unfold FrameRate.text
  split
  · exact isBare_write _
  · simp only [String.toList_append, isBare_append_iff,
      isBare_write]
    decide

theorem isBare_filterName
    (style : TransitionStyle) :
    IsBare style.filterName.toList := by
  cases style <;> decide

theorem isBare_motionPath
    (path : MotionPath)
    (size : FrameSize)
    (rate : FrameRate) :
    IsBare (path.filterText size rate).toList := by
  unfold MotionPath.filterText
  simp only [String.toList_append, isBare_append_iff,
    isBare_lower, isBare_write, isBare_frameSize,
    isBare_frameRate, and_true]
  decide

theorem isBare_ramp (ramp : BlurRamp Float) :
    IsBare ramp.filterText.toList := by
  have hWindow (window : BlurWindow Float) :
      IsBare window.filterText.toList := by
    unfold BlurWindow.filterText
    simp only [String.toList_append, isBare_append_iff,
      isBare_plain, isBare_secondsText, and_true]
    decide
  simp [BlurRamp.filterText, BlurRamp.windows, Text.join,
    hWindow, isSign]

theorem isBare_transition (t : Transition Float) :
    IsBare t.filterText.toList := by
  unfold Transition.filterText
  simp only [String.toList_append, isBare_append_iff,
    isBare_filterName, isBare_secondsText, and_true]
  decide

end FilterText

open FilterText

------------------------------------------------------------
-- Plain Names
------------------------------------------------------------

/- A name without brackets, semicolons and colons. -/
def IsPlainName (name : String) : Prop :=
  ∀ c ∈ name.toList, c ∉ ['[', ']', ';', ':']

instance (name : String) : Decidable (IsPlainName name) :=
  List.decidableBAll _ name.toList

theorem IsPlainName.isBare
    {name : String}
    (hPlain : IsPlainName name) :
    IsBare name.toList := by
  intro c hc
  have hNot := hPlain c hc
  simp only [List.mem_cons, not_or] at hNot
  simp [isSign, hNot]

/- The label that is read, if any, is a plain name. -/
def Pad.HasPlainName : Pad → Prop
  | .input _ => True
  | .label name => IsPlainName name

instance (pad : Pad) : Decidable pad.HasPlainName :=
  match pad with
  | .input _ => isTrue trivial
  | .label name =>
      inferInstanceAs (Decidable (IsPlainName name))

/- The pixel format that is set, if any, is a plain name. -/
def Stage.HasPlainFormat : Stage → Prop
  | .normalize _ pixelFormat => IsPlainName pixelFormat
  | _ => True

/-
  The labels of a node are plain names, those it reads and
  its own, and so is its pixel format.
-/
structure Node.HasPlainNames (node : Node) : Prop where
  inputs : ∀ pad ∈ node.inputs, pad.HasPlainName
  format : node.stage.HasPlainFormat
  output : IsPlainName node.output

/- All names in a graph are plain. -/
def RenderGraph.HasPlainNames (graph : RenderGraph) : Prop :=
  ∀ node ∈ graph.nodes, node.HasPlainNames

/-
  What a stage does is written without signs, whatever its
  numbers, expressions and sizes are.
-/
theorem Stage.filterText_isBare
    {stage : Stage}
    (hPlain : stage.HasPlainFormat) :
    IsBare stage.filterText.toList := by
  cases stage with
  | normalize size pixelFormat =>
      have hSize := isBare_frameSize size
      have hFormat : IsBare pixelFormat.toList :=
        IsPlainName.isBare hPlain
      unfold filterText
      simp only [String.toList_append, isBare_append_iff,
        hSize, hFormat, and_true]
      decide
  | motion path size rate =>
      exact isBare_motionPath path size rate
  | blur ramp => exact isBare_ramp ramp
  | transition t => exact isBare_transition t
  | resize size =>
      have hSize := isBare_frameSize size
      unfold filterText
      simp only [String.toList_append, isBare_append_iff,
        hSize, and_true]
      decide

------------------------------------------------------------
-- Pads
------------------------------------------------------------

namespace Pad

/- What stands between the brackets of a pad. -/
def name : Pad → String
  | .input i => Numeral.write i ++ ":v"
  | .label name => name

/- The pad with a name; a colon tells an input. -/
def read? (cs : List Char) : Option Pad :=
  match Chars.splitOnce ':' cs with
  | some (digits, ['v']) =>
      (Numeral.value? digits).map .input
  | some _ => none
  | none => some (.label (String.ofList cs))

theorem toList_filterText (pad : Pad) :
    pad.filterText.toList =
      '[' :: pad.name.toList ++ [']'] := by
  have hName : pad.filterText = bracketed pad.name := by
    cases pad <;> rfl
  rw [hName, bracketed, String.toList_append,
    String.toList_append]
  rfl

end Pad

theorem colon_not_mem_write (n : Nat) :
    ':' ∉ (Numeral.write n).toList := by
  intro hColon
  exact absurd (Numeral.isDigit_of_mem_write hColon)
    (by decide)

/- The name of a pad reads back. -/
theorem Pad.read?_name
    {pad : Pad}
    (hPlain : pad.HasPlainName) :
    read? pad.name.toList = some pad := by
  cases pad with
  | input i =>
      have hName :
          (Pad.input i).name.toList =
            (Numeral.write i).toList ++ [':', 'v'] :=
        String.toList_append
      rw [read?, hName,
        Chars.splitOnce_append_cons (colon_not_mem_write i)]
      simp [Numeral.value?_write]
  | label name =>
      have hColon : ':' ∉ name.toList := by
        intro hc
        exact hPlain ':' hc (by decide)
      rw [read?, Pad.name, Chars.splitOnce_eq_none hColon]
      simp

theorem Pad.name_isBare
    {pad : Pad}
    (hPlain : pad.HasPlainName) :
    IsBare pad.name.toList := by
  cases pad with
  | input i =>
      rw [Pad.name, String.toList_append,
        isBare_append_iff]
      exact ⟨isBare_write i, by decide⟩
  | label name => exact IsPlainName.isBare hPlain

------------------------------------------------------------
-- Nodes
------------------------------------------------------------

/-
  A node as its filter text tells it: the pads it reads, the
  filter it applies to them, and its label.
-/
structure WrittenNode where
  inputs : List Pad
  filter : String
  output : String
deriving DecidableEq, Repr

/- What the filter text of a node tells. -/
def Node.written (node : Node) : WrittenNode :=
  ⟨node.inputs, node.stage.filterText, node.output⟩

namespace WrittenNode

/-
  Read a node from its pieces, each of which was ended by a
  closing bracket: the pads in front, then the filter and
  the label.
-/
def ofPieces? : List (List Char) → Option WrittenNode
  | ('[' :: name) :: rest => do
      let pad ← Pad.read? name
      let node ← ofPieces? rest
      return { node with inputs := pad :: node.inputs }
  | [piece, []] =>
      (Chars.splitOnce '[' piece).map fun parts =>
        ⟨[], .ofList parts.1, .ofList parts.2⟩
  | _ => none

/- Read a node. -/
def read? (cs : List Char) : Option WrittenNode :=
  ofPieces? (Chars.split ']' cs)

/- Read the nodes of a graph, which semicolons part. -/
def readAll? (s : String) : Option (List WrittenNode) :=
  (Chars.split ';' s.toList).mapM read?

/- Pads in front of a node are read one by one. -/
theorem read?_pads_append
    {pads : List Pad}
    (hPlain : ∀ pad ∈ pads, pad.HasPlainName)
    (cs : List Char) :
    read? (pads.flatMap (·.filterText.toList) ++ cs) =
      (read? cs).map fun node =>
        { node with inputs := pads ++ node.inputs } := by
  induction pads with
  | nil =>
      rw [List.flatMap_nil, List.nil_append]
      cases read? cs <;> rfl
  | cons pad pads ih =>
      rw [List.forall_mem_cons] at hPlain
      rcases hPlain with ⟨hFirst, hRest⟩
      have hOpen : ']' ∉ '[' :: pad.name.toList := by
        rw [List.mem_cons, not_or]
        exact ⟨by decide,
          (Pad.name_isBare hFirst).not_mem rfl⟩
      rw [List.flatMap_cons, Pad.toList_filterText,
        List.append_assoc, List.append_assoc,
        List.singleton_append, read?,
        Chars.split_append_cons hOpen, ofPieces?,
        Pad.read?_name hFirst]
      change (read? _ >>= _) = _
      rw [ih hRest]
      cases read? cs <;> rfl

/- A filter and a label behind it are read. -/
theorem read?_filter_append
    {filter output : List Char}
    (hFilter : IsBare filter)
    (hSome : filter ≠ [])
    (hOutput : IsBare output) :
    read? (filter ++ '[' :: (output ++ [']'])) =
      some ⟨[], .ofList filter, .ofList output⟩ := by
  have hClose : ']' ∉ filter ++ '[' :: output := by
    rw [List.mem_append, List.mem_cons, not_or, not_or]
    exact ⟨hFilter.not_mem rfl, by decide,
      hOutput.not_mem rfl⟩
  have hOpen : '[' ∉ filter := hFilter.not_mem rfl
  have hPieces :
      Chars.split ']' (filter ++ '[' :: (output ++ [']'])) =
        [filter ++ '[' :: output, []] := by
    have hSplit := Chars.split_append_cons hClose []
    rwa [List.append_assoc, List.cons_append] at hSplit
  rw [read?, hPieces]
  cases filter with
  | nil => exact absurd rfl hSome
  | cons c cs =>
      have hFirst : c ≠ '[' := by
        rintro rfl
        exact hOpen List.mem_cons_self
      have hCut := Chars.splitOnce_append_cons hOpen output
      rw [List.cons_append] at hCut ⊢
      simp [ofPieces?, hFirst, hCut]

end WrittenNode

namespace Node

variable {node : Node}

theorem toList_filterText (node : Node) :
    node.filterText.toList =
      node.inputs.flatMap (·.filterText.toList) ++
        (node.stage.filterText.toList ++
          '[' :: (node.output.toList ++ [']'])) := by
  simp [filterText, bracketed, String.toList_join,
    List.flatMap_map]

/- The filter text of a node reads back as what it tells. -/
theorem read?_filterText (hPlain : node.HasPlainNames) :
    WrittenNode.read? node.filterText.toList =
      some node.written := by
  have hSome : node.stage.filterText.toList ≠ [] := by
    have hLong := node.stage.six_le_length_filterText
    rw [← String.length_toList] at hLong
    apply List.ne_nil_of_length_pos
    omega
  rw [toList_filterText,
    WrittenNode.read?_pads_append hPlain.inputs,
    WrittenNode.read?_filter_append
      (Stage.filterText_isBare hPlain.format) hSome
      hPlain.output.isBare]
  simp [written]

/- No semicolon is in the filter text of a node. -/
theorem semicolon_not_mem_filterText
    (hPlain : node.HasPlainNames) :
    ';' ∉ node.filterText.toList := by
  have hPads :
      ∀ pad ∈ node.inputs, ';' ∉ pad.filterText.toList := by
    intro pad hPad
    have hName : IsBare pad.name.toList :=
      Pad.name_isBare (hPlain.inputs pad hPad)
    rw [Pad.toList_filterText]
    simp [hName.not_mem (c := ';') rfl]
  have hFilter : ';' ∉ node.stage.filterText.toList :=
    (Stage.filterText_isBare hPlain.format).not_mem rfl
  have hOutput : ';' ∉ node.output.toList :=
    hPlain.output.isBare.not_mem rfl
  rw [toList_filterText]
  simpa [hFilter, hOutput] using hPads

/-
  Two nodes are written alike: they read the same inputs and
  labels in the same order, apply the same filter, and have
  the same label.
-/
structure IsWrittenLike (node other : Node) : Prop where
  inputs_eq : node.inputs = other.inputs
  filter_eq : node.stage.filterText = other.stage.filterText
  output_eq : node.output = other.output

end Node

------------------------------------------------------------
-- Graphs
------------------------------------------------------------

/- Nodes with plain names are read one by one. -/
theorem WrittenNode.mapM_read?
    {nodes : List Node}
    (hPlain : ∀ node ∈ nodes, node.HasPlainNames) :
    (nodes.map (·.filterText.toList)).mapM read? =
      some (nodes.map Node.written) := by
  induction nodes with
  | nil => rfl
  | cons node nodes ih =>
      rw [List.forall_mem_cons] at hPlain
      rw [List.map_cons, List.mapM_cons,
        Node.read?_filterText hPlain.1, ih hPlain.2]
      rfl

/- Nodes that tell the same are written alike, in order. -/
theorem Node.forall₂_of_map_written_eq
    {nodes others : List Node}
    (hEq : nodes.map written = others.map written) :
    List.Forall₂ IsWrittenLike nodes others := by
  induction nodes generalizing others with
  | nil =>
      rw [List.map_nil, eq_comm, List.map_eq_nil_iff] at hEq
      rw [hEq]
      exact .nil
  | cons node nodes ih =>
      cases others with
      | nil => cases hEq
      | cons other others =>
          rw [List.map_cons, List.map_cons,
            List.cons.injEq] at hEq
          rcases WrittenNode.mk.inj hEq.1 with
            ⟨hInputs, hFilter, hOutput⟩
          exact .cons ⟨hInputs, hFilter, hOutput⟩
            (ih hEq.2)

namespace RenderGraph

variable {graph : RenderGraph}

/- The filter text of a graph reads back. -/
theorem readAll?_filterText
    (hNodes : graph.nodes ≠ [])
    (hPlain : graph.HasPlainNames) :
    WrittenNode.readAll? graph.filterText =
      some (graph.nodes.map Node.written) := by
  have hPieces :
      Chars.split ';' graph.filterText.toList =
        graph.nodes.map (·.filterText.toList) := by
    rw [filterText, Text.join, String.toList_intercalate,
      List.map_map]
    apply List.splitOn_intercalate
    · intro cs hcs
      rcases List.mem_map.mp hcs with ⟨node, hNode, rfl⟩
      exact Node.semicolon_not_mem_filterText
        (hPlain node hNode)
    · simpa using hNodes
  rw [WrittenNode.readAll?, hPieces]
  exact WrittenNode.mapM_read? hPlain

/-
  The filter text of a graph with plain names reads back as
  its nodes in order, and so two such graphs with the same
  text have nodes that are written alike.
-/
theorem isWrittenLike_of_filterText_eq
    (first second : RenderGraph)
    (hNodes : first.nodes ≠ [])
    (hNodes' : second.nodes ≠ [])
    (hPlain : first.HasPlainNames)
    (hPlain' : second.HasPlainNames) :
    WrittenNode.readAll? first.filterText =
        some (first.nodes.map Node.written) ∧
      (first.filterText = second.filterText →
        List.Forall₂ Node.IsWrittenLike first.nodes
          second.nodes) := by
  have hFirst := readAll?_filterText hNodes hPlain
  refine ⟨hFirst, ?_⟩
  intro hText
  rw [hText, readAll?_filterText hNodes' hPlain'] at hFirst
  exact Node.forall₂_of_map_written_eq
    (Option.some.inj hFirst).symm

/- Two images and a fade that begins at a time. -/
def fading (offset : Float) : RenderGraph where
  inputs := ["a.png", "b.png"]
  nodes := [
    { inputs := [.input 0]
      stage := .normalize ⟨64, 36⟩ "yuv420p"
      output := "sc0" },
    { inputs := [.input 1]
      stage := .normalize ⟨64, 36⟩ "yuv420p"
      output := "sc1" },
    { inputs := [.label "sc0", .label "sc1"]
      stage := .transition ⟨0, .fade, 1.0, offset⟩
      output := finalLabel }]
  output := finalLabel
  totalDuration := 7.0
  audio := none

/- The names of these graphs are plain. -/
theorem fading_hasPlainNames (offset : Float) :
    (fading offset).HasPlainNames := by
  intro node hNode
  have hFormat : IsPlainName "yuv420p" := by decide
  simp only [fading, List.mem_cons, List.not_mem_nil,
    or_false] at hNode
  rcases hNode with rfl | rfl | rfl
  · exact ⟨by decide, hFormat, by decide⟩
  · exact ⟨by decide, hFormat, by decide⟩
  · have hPads :
        ∀ pad ∈ [Pad.label "sc0", .label "sc1"],
          pad.HasPlainName := by
      decide
    exact ⟨hPads, trivial, (by decide : IsPlainName "final")⟩

/- Parts of a microsecond are not in the filter text. -/
theorem isWrittenLike_of_filterText_eq_fading :
    (fading 3.0).HasPlainNames ∧
      fading 3.0 ≠ fading 3.0000001 ∧
      (fading 3.0).filterText =
        (fading 3.0000001).filterText ∧
      WrittenNode.readAll? (fading 3.0).filterText =
        some ((fading 3.0).nodes.map Node.written) ∧
      List.Forall₂ Node.IsWrittenLike (fading 3.0).nodes
        (fading 3.0000001).nodes := by
  have hDiffer : fading 3.0 ≠ fading 3.0000001 := by
    intro hEq
    have hNodes := congrArg RenderGraph.nodes hEq
    simp only [fading, List.cons.injEq, Node.mk.injEq,
      Stage.transition.injEq, Transition.mk.injEq,
      true_and, and_true] at hNodes
    exact absurd (congrArg Float.toBits hNodes)
      (by decide +kernel)
  have hText :
      (fading 3.0).filterText =
        (fading 3.0000001).filterText := by
    decide +kernel
  have hBoth :=
    isWrittenLike_of_filterText_eq (fading 3.0)
      (fading 3.0000001) (List.cons_ne_nil _ _)
      (List.cons_ne_nil _ _) (fading_hasPlainNames 3.0)
      (fading_hasPlainNames 3.0000001)
  exact ⟨fading_hasPlainNames 3.0, hDiffer, hText,
    hBoth.1, hBoth.2 hText⟩

end RenderGraph

end Slideshow

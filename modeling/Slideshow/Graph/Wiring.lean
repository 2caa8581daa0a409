import Slideshow.Graph.Basic

/-
  This file defines the check of the wiring of a graph:
  labels are defined before they are read, every label but
  the result is read once and the result never, and every
  input is read once.

  Key definitions include:
    * `Wiring`
    * `Wiring.addNodes`
    * `Wiring.conclude`
    * `RenderGraph.validate`
-/

namespace Slideshow

/-
  What the nodes so far have defined and read, the earliest
  first.
-/
structure Wiring where
  defined : List String
  consumed : List String
  inputsRead : List Nat
deriving DecidableEq, Repr

namespace Wiring

/- The wiring of no nodes. -/
def empty : Wiring :=
  ⟨[], [], []⟩

------------------------------------------------------------
-- Nodes
------------------------------------------------------------

/- Read one pad of a node in a graph of `count` inputs. -/
def readPad
    (count : Nat)
    (node : String)
    (w : Wiring) :
    Pad → Except WiringFault Wiring
  | .input i =>
      if i < count then
        .ok { w with inputsRead := w.inputsRead ++ [i] }
      else .error (.missingInput node i)
  | .label name =>
      if name ∉ w.defined then
        .error (.undefined node name)
      else if name ∈ w.consumed then
        .error (.consumedTwice name)
      else .ok { w with consumed := w.consumed ++ [name] }

/- Read the pads of a node, then define its label. -/
def addNode
    (count : Nat)
    (w : Wiring)
    (node : Node) : Except WiringFault Wiring := do
  let w ← node.inputs.foldlM (readPad count node.output) w
  if node.output ∈ w.defined then
    .error (.definedTwice node.output)
  else
    return { w with defined := w.defined ++ [node.output] }

/- Add nodes in order. -/
def addNodes
    (count : Nat)
    (w : Wiring)
    (nodes : List Node) : Except WiringFault Wiring :=
  nodes.foldlM (addNode count) w

------------------------------------------------------------
-- The Whole
------------------------------------------------------------

/- The first input that is not read once. -/
def wrongInput?
    (count : Nat)
    (w : Wiring) : Option Nat :=
  (List.range count).find? fun i =>
    w.inputsRead.count i != 1

/-
  The first label that is neither read nor the result, or
  that is both.
-/
def wrongLabel?
    (output : String)
    (w : Wiring) : Option String :=
  w.defined.find? fun label =>
    (label == output) == w.consumed.contains label

/- Check what the nodes have defined and read in all. -/
def conclude
    (count : Nat)
    (output : String)
    (w : Wiring) : Except WiringFault Unit :=
  match w.wrongInput? count with
  | some i => .error (.inputReads i (w.inputsRead.count i))
  | none =>
      match w.wrongLabel? output with
      | some label => .error (.dangling label)
      | none => .ok ()

end Wiring

/- Check the wiring of a graph. -/
def RenderGraph.validate
    (graph : RenderGraph) : Except WiringFault Unit := do
  let count := graph.inputs.length
  let w ← Wiring.empty.addNodes count graph.nodes
  w.conclude count graph.output

end Slideshow

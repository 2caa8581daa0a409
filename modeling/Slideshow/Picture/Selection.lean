import Slideshow.Error
import Slideshow.Scenario.Basic

/-
  This file defines selections of shots: ids and ranges of
  numbers between commas.

  Key definitions include:
    * `Selection`
    * `Selection.read`
    * `Selection.contains`
-/

namespace Slideshow

/- The ids of the selected shots, in order, each once. -/
structure Selection where
  ids : List String
deriving DecidableEq, Repr

namespace Selection

/- One text does not come after another. -/
def inOrder (a b : String) : Bool :=
  !(b < a)

/- The selection of some ids. -/
def ofIds (ids : List String) : Selection :=
  ⟨(ids.mergeSort inOrder).eraseReps⟩

/- A shot is selected. -/
def contains
    (selection : Selection)
    (id : String) : Bool :=
  selection.ids.contains id

/- The ids of the numbers from one to another. -/
def range (a b : UInt32) : List String :=
  let low := min a.toNat b.toNat
  let high := max a.toNat b.toNat
  (List.range' low (high + 1 - low)).map fun n =>
    padId (Numeral.write n)

/- Read a bound of a range. -/
def readBound
    (part s : String) : Except FormatFault UInt32 :=
  match Numeral.readUInt32? (Text.trim s) with
  | some n => .ok n
  | none => .error (.shotRange part)

/- Read one part: an id, or a range in either direction. -/
def readPart
    (part : String) :
    Except FormatFault (List String) :=
  match Text.splitOnce '-' part with
  | some (a, b) => do
      let a ← readBound part a
      let b ← readBound part b
      return range a b
  | none => .ok [padId part]

/- The parts of a text between its commas. -/
def parts (s : String) : List String :=
  ((Text.split ',' s).map Text.trim).filter fun part =>
    !part.isEmpty

/- Read a selection. -/
def read (s : String) : Except FormatFault Selection := do
  let ids ← (parts s).mapM readPart
  return ofIds ids.flatten

end Selection

end Slideshow

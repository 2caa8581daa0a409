import Slideshow.FileTree.Basic
import Slideshow.Shell.Script

/-
  This file defines the state of a shell script in progress
  and how words turn into fields: parameters are replaced by
  their values, and values outside quotes are split at
  blanks.

  Key definitions include:
    * `Shell.State`
    * `Shell.State.valueOf`
    * `Shell.State.fields`
    * `Shell.State.text`
-/

namespace Slideshow

namespace Shell

------------------------------------------------------------
-- States
------------------------------------------------------------

/-
  A script in progress: its name and arguments, the values
  of its variables, the last exit code, what it has written
  to its error stream, and the files.  `hasTools` says that
  the common tools are installed.
-/
structure State where
  name : String
  args : List String
  hasTools : Bool
  bindings : List (String × String)
  status : Nat
  errors : Bytes
  tree : FileTree

------------------------------------------------------------
-- Words
------------------------------------------------------------

/- The number that stands for the process itself. -/
def processId : String :=
  "1"

/- The value of a parameter. -/
def State.valueOf
    (state : State)
    (name : String) : String :=
  if name = "#" then Numeral.write state.args.length
  else if name = "$" then processId
  else if name = "?" then Numeral.write state.status
  else if name = "@" ∨ name = "*" then
    Text.join " " state.args
  else if name = "0" then state.name
  else
    match Numeral.value? name.toList with
    | some n => (state.args[n - 1]?).getD ""
    | none => (state.bindings.lookup name).getD ""

/-
  The fields that words turn into: those that are finished,
  the latest first, and the one that is still growing.
-/
structure Fields where
  finished : List (List Char)
  growing : Option (List Char)

namespace Fields

/- Let the last field grow by characters. -/
def grow
    (fields : Fields)
    (cs : List Char) : Fields :=
  { fields with growing := some (fields.growing.getD [] ++ cs) }

/- Finish the last field, if there is one. -/
def finish (fields : Fields) : Fields :=
  match fields.growing with
  | some cs => ⟨cs :: fields.finished, none⟩
  | none => fields

/- Add a value that is split at blanks. -/
def addSplit
    (fields : Fields)
    (cs : List Char) : Fields :=
  cs.foldl
    (fun fields c =>
      if [' ', '\t', '\n'].contains c then fields.finish
      else fields.grow [c])
    fields

/- Add values, each of which ends a field but the last. -/
def addAll
    (fields : Fields) :
    List String → Fields
  | [] => fields
  | [s] => fields.grow s.toList
  | s :: rest => ((fields.grow s.toList).finish).addAll rest

/- Add a piece of a word. -/
def add
    (state : State)
    (fields : Fields) :
    Piece → Fields
  | .char c _ => fields.grow [c]
  | .empty => fields.grow []
  | .parameter "@" true => fields.addAll state.args
  | .parameter name true =>
      fields.grow (state.valueOf name).toList
  | .parameter name false =>
      fields.addSplit (state.valueOf name).toList

end Fields

/- The fields of a word. -/
def State.fields
    (state : State)
    (w : Word) : List String :=
  let fields := w.foldl (Fields.add state) ⟨[], none⟩
  fields.finish.finished.reverse.map String.ofList

/- The value of a word that is not split. -/
def State.text
    (state : State)
    (w : Word) : String :=
  String.join <| w.map fun piece =>
    match piece with
    | .char c _ => String.ofList [c]
    | .empty => ""
    | .parameter name _ => state.valueOf name

end Shell

end Slideshow

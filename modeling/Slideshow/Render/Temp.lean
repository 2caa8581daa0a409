import Slideshow.FileTree.Change

/-
  This file defines the temporary files in which results are
  made before they are moved into place, and how those of
  interrupted runs are removed.

  Key definitions include:
    * `TempNaming`
    * `Temp.path`
    * `Temp.numbered`
    * `Temp.create`
    * `Temp.write`
    * `Temp.isStale`
    * `Temp.sweep`
    * `Error.drop`
-/

namespace Slideshow

/-
  A way to name temporary files: the characters in the
  middle of the name, letters and digits, by what lies where
  when the file is made, and by the path it will be moved
  to.
-/
class TempNaming where
  middle : FileTree → String → String
  isAlphanum_of_mem :
    ∀ tree target, ∀ c ∈ (middle tree target).toList,
      c.isAlphanum = true

namespace Temp

/- What the names of all temporary files start with. -/
def marker : String :=
  ".storyreel-"

------------------------------------------------------------
-- Names
------------------------------------------------------------

/-
  The ending of a temporary file: that of the path it will
  be moved to, since programs go by the ending.
-/
def ending (target : String) : String :=
  match Path.extension? target with
  | some extension => "." ++ extension
  | none => ""

/- The directory in which a path lies. -/
def directory (target : String) : String :=
  match Path.parent? target with
  | some parent => if parent.isEmpty then "." else parent
  | none => "."

/- A name for the temporary file of a path. -/
def name (middle target : String) : String :=
  marker ++ middle ++ ending target

/-
  A path for the temporary file of a path.  It starts at the
  root.
-/
def candidate
    (tree : FileTree)
    (middle target : String) : String :=
  Path.join (tree.absolute (directory target))
    (name middle target)

/- The path for the temporary file of a path. -/
def path
    [TempNaming]
    (tree : FileTree)
    (target : String) : String :=
  candidate tree (TempNaming.middle tree target) target

/- A number of six digits or more. -/
def digits (n : Nat) : String :=
  Text.padStart 6 '0' (Numeral.write n)

/- Digits are all there is in the text of a number. -/
theorem isDigit_of_mem_digits
    {n : Nat}
    {c : Char}
    (hMem : c ∈ (digits n).toList) :
    c.isDigit = true := by
  have hChars :
      (digits n).toList =
        List.replicate (6 - (Nat.toDigits 10 n).length) '0'
          ++ Nat.toDigits 10 n := by
    simp [digits, Text.padStart, Numeral.write,
      List.leftpad]
  rw [hChars] at hMem
  rcases List.mem_append.mp hMem with hZero | hDigit
  · rw [List.eq_of_mem_replicate hZero]
    rfl
  · exact Nat.isDigit_of_mem_toDigits (by omega) (by omega)
      hDigit

/-
  Name temporary files by the first number that is free.
  One of the first is, since they are more than there are
  entries.
-/
@[reducible]
def numbered : TempNaming where
  middle tree target :=
    let count := tree.entries.length + 1
    let free? := (List.range count).find? fun n =>
      !tree.pathExists (candidate tree (digits n) target)
    digits (free?.getD count)
  isAlphanum_of_mem := by
    intro _ _ c hMem
    rw [Char.isAlphanum, isDigit_of_mem_digits hMem,
      Bool.or_true]

------------------------------------------------------------
-- Creating and Moving
------------------------------------------------------------

/-
  Create a temporary file beside a path, with the missing
  directories above it.
-/
def create
    [TempNaming]
    (target : String)
    (content : Bytes) : FileM Error String := do
  FileM.makeParent target
  let tree ← get
  let temp := path tree target
  FileM.during (.createTemp (directory target))
    (FileM.createFile temp content)
  return temp

/- Write a file by way of a temporary one. -/
def write
    [TempNaming]
    (target : String)
    (content : Bytes) : FileM Error Unit := do
  let temp ← create target content
  FileM.during (.moveFile target temp)
    (FileM.move temp target)

------------------------------------------------------------
-- Leftovers
------------------------------------------------------------

/-
  The age in seconds from which on a temporary file is a
  leftover of an interrupted run.
-/
def staleAge : Nat :=
  3600

/- The microseconds in a number of seconds. -/
def micros (seconds : Nat) : Nat :=
  seconds * 1000000

/-
  An entry of a directory is a temporary file that is older
  than a number of seconds.
-/
def isStale
    (maxAge : Nat)
    (directory : Place)
    (entry : Place × FileNode) : Bool :=
  match entry.2 with
  | .directory => false
  | .file _ age =>
      entry.1.dropLast == directory &&
        (entry.1.getLast?.any fun name =>
          marker.toList.isPrefixOf name.toList) &&
        micros maxAge < age

/-
  Remove the leftovers in a directory and count them.  In
  what is no directory, there are none.
-/
def sweep
    (directory : String)
    (maxAge : Nat) : StateM FileTree Nat := do
  let tree ← get
  match tree.find directory with
  | .error _ => return 0
  | .ok place =>
      let (stale, rest) :=
        tree.entries.partition (isStale maxAge place)
      set { tree with entries := rest }
      return stale.length

end Temp

/- Drop an error and remove the temporary file it holds. -/
def Error.drop (e : Error) : StateM FileTree Unit :=
  match e.held? with
  | some temp => FileM.removeFile temp
  | none => return ()

end Slideshow

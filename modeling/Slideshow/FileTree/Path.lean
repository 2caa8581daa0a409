import Slideshow.Text.Basic

/-
  This file defines operations on the text of a path:
  joining, the parent directory, and the parts of a file
  name.  They look at the text alone; no file is consulted.

  A path is a list of names between slashes.  Names that are
  empty or a single dot do not count, except a dot in front
  of a relative path, which stays.

  Key definitions include:
    * `Path.join`
    * `Path.parent?`
    * `Path.fileName?`
    * `Path.fileStem?`
    * `Path.extension?`
-/

namespace Slideshow

namespace Path

------------------------------------------------------------
-- Names
------------------------------------------------------------

/- A path that starts at the root of the file system. -/
def isAbsolute (path : String) : Bool :=
  path.toList.head? == some '/'

/- What stands between the slashes. -/
def segments (path : String) : List String :=
  Text.split '/' path

/- A segment that does not count. -/
def isIdle (segment : String) : Bool :=
  segment.isEmpty || segment == "."

/- Drop the segments at the end that do not count. -/
def trimIdle (segments : List String) : List String :=
  (segments.reverse.dropWhile isIdle).reverse

/-
  The segments of a path without idle ones at the end: the
  first segment of a relative path, if there is one, and the
  rest.  The first segment always counts.
-/
def body
    (path : String) :
    List String × List String :=
  if isAbsolute path then
    ([], trimIdle (segments path).tail)
  else
    match segments path with
    | [] => ([], [])
    | first :: rest =>
        if first.isEmpty then ([], [])
        else ([first], trimIdle rest)

/- The text of segments, after the slash of the root. -/
def ofSegments
    (absolute : Bool)
    (segments : List String) : String :=
  let text := Text.join "/" segments
  if absolute then "/" ++ text else text

------------------------------------------------------------
-- Joining
------------------------------------------------------------

/-
  The path `path` as seen from the directory `base`.  An
  absolute path stays as it is.
-/
def join (base path : String) : String :=
  if isAbsolute path then path
  else if base.isEmpty ∨ base.toList.getLast? = some '/' then
    base ++ path
  else base ++ "/" ++ path

------------------------------------------------------------
-- Parents and File Names
------------------------------------------------------------

/-
  The path without its last name.  The root and the empty
  path have none.
-/
def parent? (path : String) : Option String :=
  let absolute := isAbsolute path
  match body path with
  | ([], []) => none
  | (_, []) => some ""
  | (first, rest) =>
      some (ofSegments absolute
        (first ++ trimIdle rest.dropLast))

/- The last name, unless it points to a directory by dots. -/
def fileName? (path : String) : Option String :=
  let (first, rest) := body path
  match (first ++ rest).getLast? with
  | none => none
  | some name =>
      if name == "." || name == ".." then none
      else some name

/-
  Split a file name at its last dot.  A dot in front of the
  name does not split it.
-/
def splitName
    (name : String) : String × Option String :=
  let cs := name.toList
  let ending := (cs.reverse.takeWhile (· != '.')).reverse
  let count := cs.length - ending.length
  if count ≤ 1 then (name, none)
  else
    (String.ofList (cs.take (count - 1)),
      some (String.ofList ending))

/- The file name up to its last dot. -/
def fileStem? (path : String) : Option String :=
  (fileName? path).map fun name => (splitName name).1

/- The file name after its last dot. -/
def extension? (path : String) : Option String :=
  (fileName? path).bind fun name => (splitName name).2

/- The ending of a path, ignoring ASCII case. -/
def hasExtension
    (path ending : String) : Bool :=
  match extension? path with
  | some found => Text.lower found == Text.lower ending
  | none => false

/-
  The path and all paths above it, the nearest first, up to
  the directory that the path starts from.
-/
def ancestors (path : String) : List String :=
  go (segments path).length path
where
  go : Nat → String → List String
  | 0, _ => []
  | fuel + 1, path =>
      match parent? path with
      | none => []
      | some parent => path :: go fuel parent

end Path

end Slideshow

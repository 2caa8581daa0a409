import Slideshow.Error
import Slideshow.FileTree.Path
import Slideshow.Text.Utf8

/-
  This file defines a tree of files with their contents and
  ages, and how paths are looked up in it.

  A place in the tree is a list of names from the root on.
  The working directory and the directories above it are
  there whatever was written.

  Key definitions include:
    * `FileNode`
    * `FileTree`
    * `FileTree.absolute`
    * `FileTree.node?`
    * `FileTree.find`
    * `FileTree.spot`
    * `FileTree.read`
-/

namespace Slideshow

------------------------------------------------------------
-- Trees
------------------------------------------------------------

/- A list of names that leads to a file or directory. -/
abbrev Place :=
  List String

/-
  What is found at a place: a directory, or a file with its
  contents and the microseconds since it was last changed.
-/
inductive FileNode where
| directory
| file (content : Bytes) (age : Nat)
deriving DecidableEq, Repr

/- The longest name that the file system takes, in bytes. -/
def nameLimit : Nat := 255

/- A name fits the file system. -/
def nameFits (name : String) : Bool :=
  name.utf8ByteSize ≤ nameLimit

/- A name that an entry of a directory can have. -/
def isEntryName (name : String) : Bool :=
  !Path.isIdle name && name != ".." && nameFits name &&
    !name.toList.contains '/'

/-
  The files and directories at their places, and the place
  of the working directory.
-/
structure FileTree where
  entries : List (Place × FileNode)
  home : Place
  isEntryName_of_mem :
    ∀ name ∈ home, isEntryName name = true
deriving Repr

namespace FileTree

/- The tree of an empty root, as the working directory. -/
def empty : FileTree :=
  ⟨[], [], by simp⟩

/-
  A directory that exists whatever was written: the working
  directory or one above it.
-/
def isAnchor
    (tree : FileTree)
    (place : Place) : Bool :=
  place.isPrefixOf tree.home

/- What is found at a place. -/
def node?
    (tree : FileTree)
    (place : Place) : Option FileNode :=
  if tree.isAnchor place then some .directory
  else tree.entries.lookup place

/- Take away what is found at a place. -/
def erase
    (tree : FileTree)
    (place : Place) : FileTree :=
  { tree with
    entries :=
      tree.entries.filter fun entry => entry.1 != place }

/- Put something at a place. -/
def insert
    (tree : FileTree)
    (place : Place)
    (node : FileNode) : FileTree :=
  { tree with
    entries := (place, node) :: (tree.erase place).entries }

/- There is a directory at a place. -/
def isDirectoryAt
    (tree : FileTree)
    (place : Place) : Bool :=
  tree.node? place == some .directory

/- Nothing lies below a place. -/
def isBareAt
    (tree : FileTree)
    (place : Place) : Bool :=
  !tree.isAnchor place &&
    tree.entries.all fun entry =>
      entry.1 == place || !place.isPrefixOf entry.1

/-
  Where a place goes when one place is moved with all below
  it.
-/
def graftedPlace
    (place target other : Place) : Place :=
  if place.isPrefixOf other then
    target ++ other.drop place.length
  else other

/-
  Put all that lies at a place and below it at another one,
  in the place of what lies there.
-/
def graft
    (tree : FileTree)
    (place target : Place) : FileTree :=
  let rest := tree.entries.filter fun entry =>
    !target.isPrefixOf entry.1
  { tree with
    entries := rest.map fun entry =>
      (graftedPlace place target entry.1, entry.2) }

------------------------------------------------------------
-- Looking Up Paths
------------------------------------------------------------

/- The longest path that the file system takes, in bytes. -/
def pathLimit : Nat := 4095

/- The directory above a place; the root is above itself. -/
def above (place : Place) : Place :=
  place.dropLast

/- Go on from a place by one name. -/
def enter
    (tree : FileTree)
    (place : Place)
    (name : String) : Except SystemFault Place :=
  if !tree.isDirectoryAt place then .error .notDirectory
  else if Path.isIdle name then .ok place
  else if name = ".." then .ok (above place)
  else if !nameFits name then .error .nameTooLong
  else
    match tree.node? (place ++ [name]) with
    | some _ => .ok (place ++ [name])
    | none => .error .notFound

/- Go on from a place by several names. -/
def walk
    (tree : FileTree) :
    Place → List String → Except SystemFault Place
  | place, [] => .ok place
  | place, name :: names =>
      match tree.enter place name with
      | .ok next => tree.walk next names
      | .error fault => .error fault

/- Refuse texts that are no path at all. -/
def checkPath (path : String) : Except SystemFault Unit :=
  if path.toList.contains '\x00' then .error .nulInName
  else if path.isEmpty then .error .notFound
  else if pathLimit < path.utf8ByteSize then
    .error .nameTooLong
  else .ok ()

/- Where the names of a path start. -/
def startOf
    (tree : FileTree)
    (path : String) : Place :=
  if Path.isAbsolute path then [] else tree.home

/- The place of a path that exists. -/
def find
    (tree : FileTree)
    (path : String) : Except SystemFault Place := do
  checkPath path
  tree.walk (tree.startOf path) (Path.segments path)

/- The path of the working directory. -/
def homePath (tree : FileTree) : String :=
  Path.ofSegments true tree.home

/- The same path, from the root on. -/
def absolute
    (tree : FileTree)
    (path : String) : String :=
  Path.join tree.homePath path

/- What is found at a path. -/
def nodeAt?
    (tree : FileTree)
    (path : String) : Option FileNode :=
  match tree.find path with
  | .ok place => tree.node? place
  | .error _ => none

/- There is something at a path. -/
def pathExists
    (tree : FileTree)
    (path : String) : Bool :=
  (tree.nodeAt? path).isSome

/- There is a regular file at a path. -/
def isFile
    (tree : FileTree)
    (path : String) : Bool :=
  match tree.nodeAt? path with
  | some (.file _ _) => true
  | _ => false

/- There is a directory at a path. -/
def isDirectory
    (tree : FileTree)
    (path : String) : Bool :=
  tree.nodeAt? path == some .directory

/- The contents of the file at a path. -/
def read
    (tree : FileTree)
    (path : String) : Except SystemFault Bytes := do
  let place ← tree.find path
  match tree.node? place with
  | some (.file content _) => return content
  | some .directory => .error .isDirectory
  | none => .error .notFound

/- The text of the file at a path. -/
def readText
    (tree : FileTree)
    (path : String) : Except SystemFault String := do
  let content ← tree.read path
  match Utf8.decode? content with
  | some s => return s
  | none => .error .notText

------------------------------------------------------------
-- Spots for New Entries
------------------------------------------------------------

/-
  Where a new entry would go: its directory and its name.
  `slashes` says that the path ends in slashes.
-/
structure Spot where
  directory : Place
  name : String
  slashes : Bool

/- The place of a spot. -/
def Spot.place (spot : Spot) : Place :=
  spot.directory ++ [spot.name]

/- The names before the last one, the last one, and
   whether slashes follow it. -/
def splitLast
    (segments : List String) :
    Option (List String × String × Bool) :=
  match segments.reverse.dropWhile String.isEmpty with
  | [] => none
  | name :: before =>
      some (before.reverse, name,
        segments.getLast? == some "")

/-
  The spot of a path whose last name may be missing.  A path
  that ends in dots, or is the root, has no spot; `dotted`
  is the answer then.
-/
def spot
    (tree : FileTree)
    (dotted : SystemFault)
    (path : String) : Except SystemFault Spot := do
  checkPath path
  match splitLast (Path.segments path) with
  | none => .error dotted
  | some (before, name, slashes) =>
      let directory ← tree.walk (tree.startOf path) before
      if !tree.isDirectoryAt directory then
        .error .notDirectory
      else if name = "." ∨ name = ".." then .error dotted
      else if !nameFits name then .error .nameTooLong
      else return ⟨directory, name, slashes⟩

------------------------------------------------------------
-- Listing
------------------------------------------------------------

/- A place below the working directory, seen from there. -/
def inside?
    (tree : FileTree)
    (place : Place) : Option Place :=
  if tree.isAnchor place then none
  else if tree.home.isPrefixOf place then
    some (place.drop tree.home.length)
  else none

/- The order of names, a place before all below it. -/
def placeLe : Place → Place → Bool
  | [], _ => true
  | _ :: _, [] => false
  | a :: as, b :: bs =>
      if a = b then placeLe as bs else a < b

/-
  All entries below the working directory, those of a
  directory by name and its contents right behind it.
-/
def listing
    (tree : FileTree) : List (Place × FileNode) :=
  (tree.entries.filterMap fun entry =>
    (tree.inside? entry.1).map fun place =>
      (place, entry.2)).mergeSort fun a b =>
      placeLe a.1 b.1

end FileTree

end Slideshow

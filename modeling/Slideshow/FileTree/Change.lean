import Slideshow.FileTree.Basic

/-
  This file defines the operations that change a tree.  An
  operation that fails keeps the changes it has made so far.

  Key definitions include:
    * `FileTree.moveFault?`
    * `FileTree.moved`
    * `FileM`
    * `FileM.makeDirectories`
    * `FileM.makeParent`
    * `FileM.writeFile`
    * `FileM.move`
    * `FileM.removeFile`
    * `FileTree.withFile`
    * `FileTree.withDirectory`
    * `FileTree.withAge`
-/

namespace Slideshow

------------------------------------------------------------
-- Moved Entries
------------------------------------------------------------

namespace FileTree

/-
  Why a file cannot be moved to a spot.  A file that lies
  there is replaced, but no directory is, and one that holds
  the file is not empty.
-/
def fileMoveFault?
    (tree : FileTree)
    (old new : Spot) : Option SystemFault :=
  if old.slashes || new.slashes then some .notDirectory
  else if new.place.isPrefixOf old.directory then
    some .notEmpty
  else if tree.isDirectoryAt new.place then
    some .isDirectory
  else none

/-
  Why a directory cannot be moved to a spot.  It does not go
  into itself.  An empty directory that lies there is
  replaced, but no file is.
-/
def directoryMoveFault?
    (tree : FileTree)
    (old new : Spot) : Option SystemFault :=
  if old.place.isPrefixOf new.directory then some .invalid
  else if new.place.isPrefixOf old.directory then
    some .notEmpty
  else if old.place = new.place then none
  else if tree.isAnchor old.place then some .busy
  else
    match tree.node? new.place with
    | none => none
    | some (.file _ _) => some .notDirectory
    | some .directory =>
        if tree.isBareAt new.place then none
        else some .notEmpty

/- Why an entry cannot be moved to a spot. -/
def moveFault?
    (tree : FileTree)
    (old new : Spot) : FileNode → Option SystemFault
  | .file _ _ => tree.fileMoveFault? old new
  | .directory => tree.directoryMoveFault? old new

/- The tree in which an entry was moved. -/
def moved
    (tree : FileTree)
    (old new : Place)
    (node : FileNode) : FileTree :=
  if old = new then tree
  else
    match node with
    | .file _ _ => (tree.erase old).insert new node
    | .directory => tree.graft old new

end FileTree

------------------------------------------------------------
-- Computations
------------------------------------------------------------

/-
  A computation on a file tree that may fail.  The tree is
  returned in either case.
-/
abbrev FileM (ε : Type) :=
  ExceptT ε (StateM FileTree)

namespace FileM

variable {ε ε' α : Type}

/- The age of a file that was just written. -/
def freshAge : Nat := 1

/- Say what was being done when the system refused. -/
def during
    (action : Action)
    (run : FileM SystemFault α) : FileM Error α :=
  ExceptT.adapt (Error.system action) run

/- A result that does not depend on the tree. -/
def ofExcept (result : Except ε α) : FileM ε α :=
  ExceptT.mk (pure result)

/- A result that is read off the tree. -/
def query
    (read : FileTree → Except ε α) : FileM ε α := do
  let tree ← get
  ofExcept (read tree)

------------------------------------------------------------
-- Directories
------------------------------------------------------------

/- Make one directory in a directory that exists. -/
def makeDirectory
    (path : String) : FileM SystemFault Unit := do
  let spot ← query (·.spot .alreadyExists path)
  let tree ← get
  match tree.node? spot.place with
  | some _ => throw .alreadyExists
  | none => set (tree.insert spot.place .directory)

/-
  Make one directory, or be content with one that is there
  already.
-/
def makeMissing
    (path : String) : FileM SystemFault Unit := do
  let tree ← get
  try makeDirectory path
  catch fault =>
    if fault = .alreadyExists ∧ tree.isDirectory path then
      return ()
    else throw fault

/-
  Make the first of the given directories, and before it the
  others as far as they are missing.
-/
def makeChain :
    List String → FileM SystemFault Unit
  | [] => return ()
  | path :: parents => do
      try makeMissing path
      catch fault =>
        if fault = .notFound then
          makeChain parents
          makeMissing path
        else throw fault

/- Make a directory and all missing directories above it. -/
def makeDirectories
    (path : String) : FileM SystemFault Unit :=
  makeChain (Path.ancestors path)

/- Make the directory in which a path lies. -/
def makeParent
    (path : String) : FileM Error Unit :=
  match Path.parent? path with
  | none => return ()
  | some parent =>
      if parent.isEmpty then return ()
      else
        during (.createDirectory parent)
          (makeDirectories parent)

------------------------------------------------------------
-- Files
------------------------------------------------------------

/- Write a file, new or in the place of an old one. -/
def writeFile
    (path : String)
    (content : Bytes) : FileM SystemFault Unit := do
  let spot ← query (·.spot .isDirectory path)
  let tree ← get
  if spot.slashes then throw .isDirectory
  match tree.node? spot.place with
  | some .directory => throw .isDirectory
  | _ =>
      set (tree.insert spot.place (.file content freshAge))

/- Write a file that is not there yet. -/
def createFile
    (path : String)
    (content : Bytes) : FileM SystemFault Unit := do
  let spot ← query (·.spot .isDirectory path)
  let tree ← get
  match tree.node? spot.place with
  | some _ => throw .alreadyExists
  | none =>
      set (tree.insert spot.place (.file content freshAge))

/- Move what lies at a path to another path. -/
def move
    (source target : String) : FileM SystemFault Unit := do
  let old ← query (·.spot .busy source)
  let new ← query (·.spot .busy target)
  let tree ← get
  match tree.node? old.place with
  | none => throw .notFound
  | some node =>
      match tree.moveFault? old new node with
      | some fault => throw fault
      | none => set (tree.moved old.place new.place node)

/- Remove a file, if it is there. -/
def removeFile
    (path : String) : StateM FileTree Unit := do
  let tree ← get
  match tree.find path with
  | .ok place =>
      match tree.node? place with
      | some (.file _ _) => set (tree.erase place)
      | _ => return ()
  | .error _ => return ()

end FileM

------------------------------------------------------------
-- Given Trees
------------------------------------------------------------

namespace FileTree

/-
  The tree with a file at a path and all directories above
  it.
-/
def withFile
    (tree : FileTree)
    (path : String)
    (content : Bytes) : FileTree :=
  let run : FileM Error Unit := do
    FileM.makeParent path
    FileM.during (.writeFile path)
      (FileM.writeFile path content)
  (run.run tree).2

/- The tree with a directory and all those above it. -/
def withDirectory
    (tree : FileTree)
    (path : String) : FileTree :=
  ((FileM.makeDirectories path).run tree).2

/- The tree in which a file was changed some time ago. -/
def withAge
    (tree : FileTree)
    (path : String)
    (age : Nat) : FileTree :=
  match tree.find path with
  | .error _ => tree
  | .ok place =>
      match tree.node? place with
      | some (.file content _) =>
          tree.insert place (.file content age)
      | _ => tree

end FileTree

end Slideshow

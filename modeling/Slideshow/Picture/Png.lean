import Slideshow.Picture.Checksum
import Slideshow.Picture.Reader

/-
  This file defines what is read of a PNG file in order to
  know its size: the chunks in front of the image data.

  Key definitions include:
    * `Png.Header`
    * `Png.size?`
    * `Png.blank`
    * `Png.reader`
-/

namespace Slideshow

namespace Png

------------------------------------------------------------
-- Chunks
------------------------------------------------------------

/- The bytes that every file starts with. -/
def signature : Bytes :=
  [0x89, 0x50, 0x4E, 0x47, 0x0D, 0x0A, 0x1A, 0x0A]

/- The bytes of a word, the highest first. -/
def wordBytes (w : UInt32) : Bytes :=
  [(w >>> 24).toUInt8, (w >>> 16).toUInt8,
    (w >>> 8).toUInt8, w.toUInt8]

/- The word of four bytes, the highest first. -/
def toWord (a b c d : UInt8) : UInt32 :=
  (a.toUInt32 <<< 24) ||| (b.toUInt32 <<< 16) |||
    (c.toUInt32 <<< 8) ||| d.toUInt32

/- The names of the chunks that matter. -/
inductive ChunkName where
| header
| palette
| data
| stop
| other (critical : Bool)
deriving DecidableEq, Repr

/- The name that four bytes stand for. -/
def ChunkName.ofBytes (mark : Bytes) : ChunkName :=
  if mark = [0x49, 0x48, 0x44, 0x52] then .header
  else if mark = [0x50, 0x4C, 0x54, 0x45] then .palette
  else if mark = [0x49, 0x44, 0x41, 0x54] then .data
  else if mark = [0x49, 0x45, 0x4E, 0x44] then .stop
  else
    .other (mark.head?.any fun b => b &&& 0x20 == 0)

/- A chunk whose checksum has to be right. -/
def ChunkName.isCritical : ChunkName → Bool
  | .other critical => critical
  | _ => true

/- A chunk with its name, its body and its checksum. -/
def chunk
    (mark body : Bytes) : Bytes :=
  wordBytes body.length.toUInt32 ++ mark ++ body ++
    wordBytes (Checksum.ofBytes (mark ++ body))

/- A chunk that was read, and the bytes behind it. -/
structure Chunk where
  name : ChunkName
  body : Bytes
  rest : Bytes

/-
  Read a chunk with its checksum.  Only critical chunks need
  a right one.
-/
def readChunk? (bytes : Bytes) : Option Chunk :=
  match bytes with
  | a :: b :: c :: d :: e :: f :: g :: h :: after =>
      let mark := [e, f, g, h]
      let name := ChunkName.ofBytes mark
      let length := (toWord a b c d).toNat
      let body := after.take length
      match after.drop length with
      | i :: j :: k :: l :: rest =>
          let right :=
            toWord i j k l == Checksum.ofBytes (mark ++ body)
          if right || !name.isCritical then
            some ⟨name, body, rest⟩
          else none
      | _ => none
  | _ => none

------------------------------------------------------------
-- Headers
------------------------------------------------------------

/- What the first chunk tells of the picture. -/
structure Header where
  size : FrameSize
  depth : UInt8
  color : UInt8
deriving DecidableEq, Repr

namespace Header

/- The bit depths that a kind of colour allows. -/
def depths (color : UInt8) : List UInt8 :=
  if color = 0 then [1, 2, 4, 8, 16]
  else if color = 3 then [1, 2, 4, 8]
  else if color = 2 ∨ color = 4 ∨ color = 6 then [8, 16]
  else []

/- Read the body of a header chunk. -/
def ofBody? : Bytes → Option Header
  | [a, b, c, d, e, f, g, h, depth, color, pressed,
      filtered, laced] =>
      match FrameSize.checked (toWord a b c d)
          (toWord e f g h) with
      | .ok size =>
          if (depths color).contains depth ∧ pressed = 0 ∧
              filtered = 0 ∧ laced ≤ 1 then
            some ⟨size, depth, color⟩
          else none
      | .error _ => none
  | _ => none

/- The picture names its colours by numbers. -/
def isIndexed (header : Header) : Bool :=
  header.color == 3

end Header

------------------------------------------------------------
-- Sizes
------------------------------------------------------------

/- The next chunk holds image data, whole or cut short. -/
def startsData : Bytes → Bool
  | _ :: _ :: _ :: _ :: e :: f :: g :: h :: _ =>
      ChunkName.ofBytes [e, f, g, h] == .data
  | _ => false

/-
  Chunks lead to the image data, with a palette on the way
  if one is needed.  At most `fuel` chunks are passed.
-/
def reachesData
    (fuel : Nat)
    (needsPalette : Bool)
    (bytes : Bytes) : Bool :=
  match fuel with
  | 0 => false
  | fuel + 1 =>
      if startsData bytes then !needsPalette
      else
        match readChunk? bytes with
        | none => false
        | some chunk =>
            match chunk.name with
            | .header | .stop | .data => false
            | .palette => reachesData fuel false chunk.rest
            | .other _ =>
                reachesData fuel needsPalette chunk.rest

/-
  The size of the picture in a file, if everything in front
  of its image data is in order.
-/
def size? (bytes : Bytes) : Option FrameSize :=
  if bytes.take 8 ≠ signature then none
  else
    match readChunk? (bytes.drop 8) with
    | some ⟨.header, body, rest⟩ =>
        match Header.ofBody? body with
        | some header =>
            if reachesData rest.length header.isIndexed
                rest then
              some header.size
            else none
        | none => none
    | _ => none

/- A file of a size, without any image data. -/
def blank (size : FrameSize) : Bytes :=
  signature ++
    chunk [0x49, 0x48, 0x44, 0x52]
      (wordBytes size.width ++ wordBytes size.height ++
        [8, 2, 0, 0, 0]) ++
    chunk [0x49, 0x44, 0x41, 0x54] [] ++
    chunk [0x49, 0x45, 0x4E, 0x44] []

------------------------------------------------------------
-- Picture Files
------------------------------------------------------------

/-
  The size of a picture file.  The ending of its name tells
  the format, and PNG is the one that can be read.
-/
def fileSize?
    (tree : FileTree)
    (path : String) : Option FrameSize :=
  if Path.hasExtension path "png" then
    match tree.read path with
    | .ok bytes => size? bytes
    | .error _ => none
  else none

/- What is read is found by its path. -/
theorem pathExists_of_read
    {tree : FileTree}
    {path : String}
    {bytes : Bytes}
    (hRead : tree.read path = .ok bytes) :
    tree.pathExists path = true := by
  unfold FileTree.read at hRead
  unfold FileTree.pathExists FileTree.nodeAt?
  cases hFind : tree.find path with
  | error fault =>
      rw [hFind] at hRead
      cases hRead
  | ok place =>
      rw [hFind] at hRead
      cases hNode : tree.node? place with
      | none =>
          simp only [bind, Except.bind, hNode] at hRead
          cases hRead
      | some node =>
          simp [hNode]

/- Read the size of PNG files alone. -/
@[reducible]
def reader : PictureReader where
  size? := fileSize?
  pathExists_of_size? := by
    intro tree path size hSize
    unfold fileSize? at hSize
    split at hSize
    · cases hRead : tree.read path with
      | error fault =>
          rw [hRead] at hSize
          cases hSize
      | ok bytes =>
          exact pathExists_of_read hRead
    · cases hSize

end Png

end Slideshow

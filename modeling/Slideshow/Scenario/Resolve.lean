import Slideshow.Motion.Reading
import Slideshow.Picture.Reader
import Slideshow.Scenario.Basic
import Slideshow.Timing

/-
  This file defines the shots of a scenario: the records
  whose images can be read, with their times and moves.  A
  record without a readable image is skipped; a record with
  one has to be right.

  Key definitions include:
    * `Shot`
    * `SkipReason`
    * `ShotList`
    * `Scenario.resolveRecord`
    * `Scenario.resolve`
-/

namespace Slideshow

------------------------------------------------------------
-- Shots
------------------------------------------------------------

/- A shot with an image that can be read. -/
structure Shot where
  id : String
  image : String
  source : FrameSize
  range : TimeRange
  motion : Option MotionEffect
deriving Repr

/- The time of a shot without its dissolves. -/
def Shot.baseDuration (shot : Shot) : Float :=
  shot.range.duration

/- Why a shot is skipped. -/
inductive SkipReason where
| missing
| unreadable
deriving DecidableEq, Repr

/- A shot without an image that can be read. -/
structure SkippedShot where
  id : String
  image : String
  reason : SkipReason
deriving DecidableEq, Repr

/- The shots that are left and those that are skipped. -/
structure ShotList where
  shots : List Shot
  skipped : List SkippedShot
deriving Repr

/- What becomes of one record. -/
inductive ResolvedRecord where
| kept (shot : Shot)
| skipped (shot : SkippedShot)
deriving Repr

namespace ResolvedRecord

/- The shot of a record that is kept. -/
def shot? : ResolvedRecord → Option Shot
  | kept shot => some shot
  | skipped _ => none

/- The shot of a record that is skipped. -/
def skipped? : ResolvedRecord → Option SkippedShot
  | kept _ => none
  | skipped shot => some shot

end ResolvedRecord

------------------------------------------------------------
-- Records
------------------------------------------------------------

/- The timing of a record that gives none. -/
def defaultTiming : String :=
  "00:00:00 - 00:00:05"

namespace ShotRecord

/- The time range of a record, which may not be empty. -/
def readRange
    (record : ShotRecord)
    (id : String) : Except Error TimeRange := do
  let timing := record.timing.getD defaultTiming
  let range ← (TimeRange.read timing).mapError fun fault =>
    .format (.inShot id fault)
  if range.duration ≤ 0.0 then
    .error (.format (.emptyShot id timing))
  return range

/- The move of a record, if it gives one. -/
def readMotion
    (record : ShotRecord)
    (id : String) :
    Except Error (Option MotionEffect) :=
  match record.motion with
  | none => .ok none
  | some name =>
      match MotionEffect.read name with
      | .ok effect => .ok (some effect)
      | .error fault =>
          .error (.validation (.inShot id (.motion fault)))

/- The shot of a record whose image can be read. -/
def toShot
    (record : ShotRecord)
    (id image : String)
    (source : FrameSize) : Except Error Shot := do
  let range ← record.readRange id
  let motion ← record.readMotion id
  return ⟨id, image, source, range, motion⟩

end ShotRecord

------------------------------------------------------------
-- Scenarios
------------------------------------------------------------

namespace Scenario

/- Resolve the record at a position. -/
def resolveRecord
    [PictureReader]
    (scenario : Scenario)
    (tree : FileTree)
    (position : Nat)
    (record : ShotRecord) :
    Except Error ResolvedRecord :=
  let id := record.shotId position
  let image := scenario.imagePath record id
  if !tree.pathExists image then
    .ok (.skipped ⟨id, image, .missing⟩)
  else
    match PictureReader.size? tree image with
    | none => .ok (.skipped ⟨id, image, .unreadable⟩)
    | some source =>
        (record.toShot id image source).map .kept

/- Resolve records, the first at the given position. -/
def resolveFrom
    [PictureReader]
    (scenario : Scenario)
    (tree : FileTree)
    (position : Nat) :
    List ShotRecord → Except Error (List ResolvedRecord)
  | [] => .ok []
  | record :: rest => do
      let first ←
        scenario.resolveRecord tree position record
      let more ←
        scenario.resolveFrom tree (position + 1) rest
      return first :: more

/- The records up to a limit. -/
def recordsWithin
    (scenario : Scenario)
    (limit : Option Nat) : List ShotRecord :=
  match limit with
  | none => scenario.records
  | some n => scenario.records.take n

/-
  Resolve the records up to a limit, in order.  The first
  record that is wrong decides the error, and at least one
  shot has to be left.
-/
def resolve
    [PictureReader]
    (scenario : Scenario)
    (tree : FileTree)
    (limit : Option Nat) : Except Error ShotList := do
  let resolved ←
    scenario.resolveFrom tree 0
      (scenario.recordsWithin limit)
  let shots := resolved.filterMap ResolvedRecord.shot?
  let skipped := resolved.filterMap ResolvedRecord.skipped?
  if shots.isEmpty then
    .error (.validation (.noValidShots skipped.length))
  return ⟨shots, skipped⟩

end Scenario

end Slideshow

import Slideshow.Audio.Fit
import Slideshow.Audio.Wave
import Slideshow.FileTree.Basic

/-
  This file defines how a narration file is bound to a film.

  Key definitions include:
    * `WaveInfo.load`
    * `AudioTrack.bind`
-/

namespace Slideshow

/- Read the facts of a WAVE file in a tree. -/
def WaveInfo.load
    (tree : FileTree)
    (path : String) : Except Error WaveInfo :=
  match tree.read path with
  | .error cause =>
      .error (.missing (.unreadableAudio path cause))
  | .ok bytes =>
      (Wave.read bytes).mapError fun fault =>
        .format (.wave fault)

namespace AudioTrack

/-
  The playing time of a narration file.  It is known for
  WAVE files with a readable header alone.
-/
def seconds?
    (tree : FileTree)
    (path : String) : Option Float :=
  if Path.hasExtension path "wav" then
    match WaveInfo.load tree path with
    | .ok info => some info.seconds
    | .error _ => none
  else none

/-
  Bind a narration file to a film of a given length.  The
  file has to exist.
-/
def bind
    (tree : FileTree)
    (path : String)
    (video : Float) : Except Error AudioTrack :=
  if tree.isFile path then
    let duration := seconds? tree path
    .ok ⟨path, duration, .classify duration video⟩
  else .error (.missing (.audio path))

end AudioTrack

end Slideshow

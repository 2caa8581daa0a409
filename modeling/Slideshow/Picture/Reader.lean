import Slideshow.FileTree.Basic
import Slideshow.Frame.Reading

/-
  This file defines what is asked of a reader of pictures.

  Key definitions include:
    * `PictureReader`
-/

namespace Slideshow

/-
  A way to read the size of a picture file.  What can be
  read is there.
-/
class PictureReader where
  size? : FileTree → String → Option FrameSize
  pathExists_of_size? :
    ∀ tree path size,
      size? tree path = some size →
        tree.pathExists path = true

end Slideshow

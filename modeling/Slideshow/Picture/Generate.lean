import Slideshow.Picture.Request
import Slideshow.Render.Atomic

/-
  This file defines how one picture is generated and saved.

  Key definitions include:
    * `ImageGenerator`
    * `ImageRequest.withFiles`
    * `ImageRequest.generate`
-/

namespace Slideshow

/- What makes the file of a picture for a request. -/
abbrev ImageGenerator (σ : Type) :=
  ImageRequest → σ → Except Error Bytes × σ

namespace ImageRequest

/- The request with references to existing files alone. -/
def withFiles
    (request : ImageRequest)
    (tree : FileTree) : ImageRequest :=
  { request with
    references := request.references.filter tree.isFile }

/-
  Generate a picture and write it to a file by way of a
  temporary one.  A picture without any bytes is a failure.
-/
def generate
    [TempNaming]
    {σ : Type}
    (generator : ImageGenerator σ)
    (request : ImageRequest)
    (output : String)
    (s : σ)
    (tree : FileTree) : Performed σ String :=
  match generator (request.withFiles tree) s with
  | (.error e, s) => ⟨.error e, s, tree⟩
  | (.ok [], s) =>
      ⟨.error (.generation .emptyResponse), s, tree⟩
  | (.ok bytes, s) =>
      .ofFiles (do
        Temp.write output bytes
        return output) s tree

end ImageRequest

end Slideshow

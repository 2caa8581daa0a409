import Slideshow.Film
import Slideshow.Graph.Document
import Slideshow.Scenario.Document

/-
  This file defines the description of a film.

  Key definitions include:
    * `Film.description`
-/

namespace Slideshow

open Json (Document)

namespace Film

/- The fingerprint of a film as text. -/
def fingerprintText (film : Film) : String :=
  Hash.hex film.fingerprint

/- Everything about a film, in one document. -/
def description (film : Film) : Document :=
  .record [
    ("fingerprint", .text film.fingerprintText),
    ("total_duration", .real film.graph.totalDuration),
    ("shots", film.shots.document),
    ("timeline", film.timeline.document),
    ("graph", film.graph.document),
    ("filter_complex", .text film.graph.filterText)]

end Film

end Slideshow

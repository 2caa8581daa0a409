import Slideshow.Proofs.Render.Temp
import Slideshow.Render.Atomic

/-
  This file proves what a render does to the files before
  its renderer is called, and how the files of its two ends
  compare with the first ones: those that differ at the
  temporary file alone, and those in which it was moved.

  An output such as `a/../a` is its own missing directory.
  It is made like any other (`FileTree.IsMade`), so that it
  is there whatever the renderer does.

  Key definitions include:
    * `RenderGraph.Remains`
    * `RenderGraph.IsReady`
    * `RenderGraph.Prepared`
    * `RenderGraph.Moved`

  Main results include:
    * `RenderGraph.run_prepare`
    * `RenderGraph.Prepared.node?_below`
    * `RenderGraph.Prepared.ne_of_find`
    * `RenderGraph.Prepared.keeps`
    * `RenderGraph.Prepared.moved`
-/

namespace Slideshow

namespace RenderGraph

open FileTree

variable {output : String}
variable {before given after : FileTree}
variable {place : Place}

------------------------------------------------------------
-- What May Happen to the Files
------------------------------------------------------------

/-
  A file beside the output has been removed as a leftover of
  an interrupted run.
-/
def IsSwept
    (output : String)
    (before after : FileTree)
    (place : Place) : Prop :=
  ∃ home,
    after.find (Temp.directory output) = .ok home ∧
      after.node? home = some .directory ∧
      Temp.IsLeftover Temp.staleAge home before place ∧
      after.node? place = none

/-
  A place is as it was, has become one of the directories on
  the way to the output, or has lost a leftover.
-/
def Remains
    (output : String)
    (before after : FileTree)
    (place : Place) : Prop :=
  after.node? place = before.node? place ∨
    IsMade (Path.higher output) before after place ∨
    IsSwept output before after place

/- What remains does so while directories stay. -/
theorem Remains.extends
    (hRemains : Remains output before given place)
    (hExtends : given.Extends after)
    (hSame : after.node? place = given.node? place) :
    Remains output before after place := by
  rcases hRemains with
    hOld | hMade | ⟨home, hFind, hHome, hLeftover, hGone⟩
  · exact Or.inl (hSame.trans hOld)
  · exact Or.inr (Or.inl (hMade.extends hExtends))
  · have hStays := hExtends.node _ hHome
    exact Or.inr (Or.inr ⟨home,
      find_extends hExtends hFind (by simp [hStays]),
      hStays, hLeftover, hSame.trans hGone⟩)

------------------------------------------------------------
-- Before the Renderer
------------------------------------------------------------

/-
  The temporary file is ready for the renderer: it is new
  and empty at its spot.
-/
structure IsReady
    (output : String)
    (before given : FileTree)
    (temp : String)
    (spot : Spot) : Prop where
  isCandidate : Temp.IsCandidate given output temp
  isSpot : given.spot .isDirectory temp = .ok spot
  home_eq : given.home = before.home
  free : before.node? spot.place = none
  empty : given.node? spot.place =
    some (.file [] FileM.freshAge)

/-
  All files are ready for the renderer: the leftovers are
  gone, and all else remains.
-/
structure Prepared
    (output : String)
    (before given : FileTree)
    (temp : String)
    (spot : Spot) : Prop
    extends IsReady output before given temp spot where
  rest : ∀ place, place ≠ spot.place →
    Remains output before given place
  swept : ∀ place,
    Temp.IsLeftover Temp.staleAge spot.directory before
        place →
      given.node? place = none

section Swept

variable {made : FileTree}
variable {temp : String}
variable {spot : Spot}

/-
  Once the directories are made and the temporary file is
  created, a sweep leaves the file ready.
-/
theorem isReady_of_gains
    (hGains : Gains (Path.higher output) before made)
    (hTemp : Temp.IsCandidate made output temp)
    (hSpot : made.spot .isDirectory temp = .ok spot)
    (hFree : made.node? spot.place = none) :
    IsReady output before
      ((Temp.sweep (Temp.directory output)
        Temp.staleAge).run (made.insert spot.place
          (.file [] FileM.freshAge))).2 temp spot := by
  have hPut := isPut_insert (.file [] FileM.freshAge) hFree
  generalize
    made.insert spot.place (.file [] FileM.freshAge) =
      created at hPut ⊢
  have hTemp := hTemp.of_home_eq hPut.home_eq
  have hSpot :=
    spot_extends hPut.extends hSpot .isDirectory
  have hFind := (hTemp.spot hSpot).2.2
  have hGiven := Temp.extends_sweep Temp.staleAge hFind
  have hAll :=
    (hGains.extends.trans hPut.extends).trans hGiven
  refine ⟨hTemp.of_home_eq hGiven.home_eq,
    spot_extends hGiven hSpot _, hAll.home_eq, ?_, ?_⟩
  · by_contra hNode
    rw [← hGains.node_of_ne_none hNode] at hNode
    exact hNode hFree
  · exact Temp.node?_sweep_of_keep Temp.staleAge hFind
      hPut.here (by simp [Temp.isStale, Temp.micros,
        Temp.staleAge, FileM.freshAge])

/- If each place is listed once, all files are ready. -/
theorem prepared_of_gains
    (hDistinct : (before.entries.map Prod.fst).Nodup)
    (hGains : Gains (Path.higher output) before made)
    (hTemp : Temp.IsCandidate made output temp)
    (hSpot : made.spot .isDirectory temp = .ok spot)
    (hFree : made.node? spot.place = none) :
    Prepared output before
      ((Temp.sweep (Temp.directory output)
        Temp.staleAge).run (made.insert spot.place
          (.file [] FileM.freshAge))).2 temp spot := by
  have hReady := isReady_of_gains hGains hTemp hSpot hFree
  have hPut := isPut_insert (.file [] FileM.freshAge) hFree
  have hCreatedDistinct :=
    nodup_insert (hGains.distinct hDistinct) spot.place
      (.file [] FileM.freshAge)
  generalize
    made.insert spot.place (.file [] FileM.freshAge) =
      created at hReady hPut hCreatedDistinct ⊢
  have hSpot :=
    spot_extends hPut.extends hSpot .isDirectory
  have hFind :=
    ((hTemp.of_home_eq hPut.home_eq).spot hSpot).2.2
  have hSweep :=
    Temp.node?_sweep Temp.staleAge hCreatedDistinct hFind
  have hGiven := Temp.extends_sweep Temp.staleAge hFind
  generalize ((Temp.sweep (Temp.directory output)
    Temp.staleAge).run created).2 = given
      at hReady hSweep hGiven ⊢
  have hHome :
      given.node? spot.directory = some .directory := by
    rcases spot_eq_ok_iff.mp hSpot with
      ⟨-, _, -, -, hDirectory, -⟩
    exact hGiven.node _ hDirectory
  refine ⟨hReady, ?_, ?_⟩
  · intro place hPlace
    have hMiddle := hPut.there place hPlace
    rcases hGains.node place with hOld | hMade
    · have hOld := hMiddle.trans hOld
      rcases hSweep place with
        ⟨hLeftover, hGone⟩ | ⟨-, hSame⟩
      · exact Or.inr (Or.inr ⟨spot.directory,
          find_extends hGiven hFind (by simp [hHome]),
          hHome, hLeftover.of_eq hOld.symm, hGone⟩)
      · exact Or.inl (hSame.trans hOld)
    · exact Or.inr (Or.inl
        (hMade.extends (hPut.extends.trans hGiven)))
  · intro place hLeftover
    have hPlace : place ≠ spot.place := by
      rintro rfl
      exact hLeftover.node?_ne.1 hReady.free
    have hOld :=
      (hPut.there place hPlace).trans
        (hGains.node_of_ne_none hLeftover.node?_ne.1)
    rcases hSweep place with ⟨-, hGone⟩ | ⟨hKept, -⟩
    · exact hGone
    · exact absurd (hLeftover.of_eq hOld) hKept

end Swept

/-
  The preparation fails with nothing but directories made
  and no file held, or leaves the files ready.
-/
theorem run_prepare
    [TempNaming]
    (output : String)
    (before : FileTree) :
    (∃ error after,
      (prepare output).run before = (.error error, after) ∧
        error.held? = none ∧
        Gains (Path.higher output) before after) ∨
      ∃ temp spot given,
        (prepare output).run before = (.ok temp, given) ∧
          IsReady output before given temp spot ∧
          ((before.entries.map Prod.fst).Nodup →
            Prepared output before given temp spot) := by
  simp only [prepare, FileM.run_bind]
  rcases Temp.run_create output [] before with
    ⟨error, after, hRun, hHeld, hGains⟩ |
    ⟨temp, spot, made, hGains, hTemp, hSpot, hFree, hRun⟩
  · left
    rw [hRun]
    exact ⟨error, after, rfl, hHeld, hGains⟩
  · right
    rw [hRun]
    exact ⟨temp, spot, _, rfl,
      isReady_of_gains hGains hTemp hSpot hFree,
      fun hDistinct =>
        prepared_of_gains hDistinct hGains hTemp hSpot hFree⟩

------------------------------------------------------------
-- Files That Differ at the Temporary File
------------------------------------------------------------

variable {temp : String}
variable {spot : Spot}

/- The temporary file lies in the output's directory. -/
theorem IsReady.home
    (hReady : IsReady output before given temp spot) :
    given.find (Temp.directory output) =
        .ok spot.directory ∧
      given.node? spot.directory = some .directory := by
  rcases spot_eq_ok_iff.mp hReady.isSpot with
    ⟨-, _, -, -, hDirectory, -⟩
  exact ⟨(hReady.isCandidate.spot hReady.isSpot).2.2,
    hDirectory⟩

theorem IsReady.isMarked
    (hReady : IsReady output before given temp spot) :
    Temp.IsMarked spot.name :=
  (hReady.isCandidate.spot hReady.isSpot).1

theorem IsReady.slashes_eq
    (hReady : IsReady output before given temp spot) :
    spot.slashes = false :=
  (hReady.isCandidate.spot hReady.isSpot).2.1

theorem IsReady.find
    (hReady : IsReady output before given temp spot) :
    given.find temp = .ok spot.place := by
  apply find_of_spot hReady.isSpot
  · simp [hReady.empty]
  · exact Or.inl hReady.slashes_eq

/- The preparation takes no directories away. -/
theorem Prepared.extends
    (hPrepared : Prepared output before given temp spot) :
    before.Extends given := by
  refine ⟨hPrepared.home_eq, ?_⟩
  intro place hNode
  have hPlace : place ≠ spot.place := by
    rintro rfl
    rw [hPrepared.free] at hNode
    cases hNode
  rcases hPrepared.rest place hPlace with
    hSame | hMade | ⟨home, -, -, hLeftover, -⟩
  · rw [hSame, hNode]
  · exact hMade.made
  · exact absurd hNode hLeftover.node?_ne.2

/- What the renderer is given lies in directories. -/
theorem Prepared.node?_below
    (hPrepared : Prepared output before given temp spot)
    (hTree : before.IsWellFormed)
    (hPlace : given.node? place ≠ some .directory)
    {rest : Place}
    (hRest : rest ≠ []) :
    given.node? (place ++ rest) = none := by
  have hGround (path : String) :
      given.find path ≠ .ok (place ++ rest) := by
    intro hFind
    rcases (find_isGrounded hFind).2 place
      (List.prefix_append _ _) with hEq | hNode
    · simp [hRest] at hEq
    · exact hPlace hNode
  have hTemp : place ++ rest ≠ spot.place := by
    intro hEq
    exact hGround temp (hEq ▸ hPrepared.find)
  by_contra hBelow
  rcases hPrepared.rest _ hTemp with
    hOld | ⟨-, -, path, -, hFind⟩ | ⟨home, -, -, -, hGone⟩
  · rw [hOld] at hBelow
    exact hPlace (hPrepared.extends.node _
      (hTree.directory_of_append hRest hBelow))
  · exact hGround path hFind
  · exact hBelow hGone

theorem Prepared.ne_of_isLeftover
    (hPrepared : Prepared output before given temp spot)
    (hLeftover :
      Temp.IsLeftover Temp.staleAge spot.directory before
        place) :
    place ≠ spot.place := by
  rintro rfl
  have hGone := hPrepared.swept _ hLeftover
  rw [hPrepared.empty] at hGone
  cases hGone

/-
  A change at the temporary file takes no directories away.
-/
theorem Prepared.extends_of_ne
    (hPrepared : Prepared output before given temp spot)
    (hHome : after.home = given.home)
    (hSame : ∀ place, place ≠ spot.place →
      after.node? place = given.node? place) :
    given.Extends after :=
  Extends.of_ne hHome (by simp [hPrepared.empty]) hSame

/-
  A path whose file name is not marked never leads to the
  temporary file, whatever is put in its place.
-/
theorem Prepared.ne_of_find
    (hPrepared : Prepared output before given temp spot)
    (hTree : before.IsWellFormed)
    (hName : ∀ name, Path.fileName? output = some name →
      ¬ Temp.IsMarked name)
    (hHome : after.home = given.home)
    (hSame : ∀ place, place ≠ spot.place →
      after.node? place = given.node? place)
    (hFind : after.find output = .ok place) :
    place ≠ spot.place := by
  rintro rfl
  have hFile :
      given.node? spot.place ≠ some .directory := by
    simp [hPrepared.empty]
  rcases find_cases hFind with
    hAnchor | ⟨lower, hGrounded, hLower, hPlace⟩ |
      ⟨directory, name, hPlace, hOutput⟩
  · rw [isAnchor_iff, hHome, ← isAnchor_iff] at hAnchor
    exact hFile (node?_of_isAnchor hAnchor)
  · -- A directory below the temporary file would have been
    -- there before it.
    rcases List.eq_nil_or_concat' lower with
      rfl | ⟨higher, last, rfl⟩
    · simp [Spot.place, above] at hPlace
    · have hHigher : higher = spot.place := by
        rw [hPlace]
        exact List.dropLast_concat.symm
      rw [hHigher] at hLower
      have hBelow :=
        hPrepared.node?_below hTree hFile
          (List.cons_ne_nil last [])
      rw [← hSame _ (by simp), hLower] at hBelow
      cases hBelow
  · apply hName name hOutput
    have hEq : spot.name = name :=
      List.singleton_inj.mp
        (List.append_inj_right' hPlace rfl)
    rw [← hEq]
    exact hPrepared.isMarked

/-
  If the files differ from the prepared ones at the
  temporary file alone, the entry at the output is kept.
-/
theorem Prepared.keeps
    (hPrepared : Prepared output before given temp spot)
    (hTree : before.IsWellFormed)
    (hName : ∀ name, Path.fileName? output = some name →
      ¬ Temp.IsMarked name)
    (hHome : after.home = given.home)
    (hSame : ∀ place, place ≠ spot.place →
      after.node? place = given.node? place) :
    KeepsEntry output before after := by
  have hExtends := hPrepared.extends_of_ne hHome hSame
  constructor
  · intro place hFind
    have hNode := (find_isGrounded hFind).1
    have hPlace : place ≠ spot.place := by
      rintro rfl
      exact hNode hPrepared.free
    have hKept :
        after.node? place = before.node? place := by
      rw [hSame place hPlace]
      rcases hPrepared.rest place hPlace with
        hOld | hMade | ⟨home, -, -, hLeftover, -⟩
      · exact hOld
      · exact absurd hMade.free hNode
      · rcases hLeftover with
          ⟨name, content, age, hLast, hMarked, hFile, -⟩
        rcases find_file hFind hFile with
          ⟨directory, name', hLast', hOutput⟩
        have hEq : name = name' :=
          List.singleton_inj.mp (List.append_inj_right'
            (hLast.symm.trans hLast') rfl)
        rw [hEq] at hMarked
        exact absurd hMarked (hName _ hOutput)
    refine ⟨?_, hKept⟩
    exact find_extends (hPrepared.extends.trans hExtends)
      hFind (by rw [hKept]; exact hNode)
  · intro place hFind
    have hPlace :=
      hPrepared.ne_of_find hTree hName hHome hSame hFind
    rcases (hPrepared.rest place hPlace).extends hExtends
      (hSame place hPlace) with
      hOld | hMade | ⟨home, -, -, -, hGone⟩
    · exact Or.inl hOld
    · exact Or.inr hMade
    · exact absurd hGone (find_isGrounded hFind).1

------------------------------------------------------------
-- Files Moved Into Place
------------------------------------------------------------

variable {left : FileTree}

/-
  What a renderer left at the temporary file has been moved
  to a place beside it, to which the output leads.
-/
structure Moved
    (output : String)
    (given left after : FileTree)
    (spot : Spot)
    (place : Place) : Prop where
  found : after.find output = .ok place
  beside : ∃ name, place = spot.directory ++ [name] ∧
    ¬ Temp.IsMarked name
  taken : ∃ node, left.node? spot.place = some node ∧
    after.node? place = some node
  gone : after.node? spot.place = none
  directories : given.Extends after
  rest : ∀ other, other ≠ spot.place → other ≠ place →
    after.node? other = given.node? other

/- What was moved into place is no leftover. -/
theorem Moved.ne_of_isLeftover
    {other : Place}
    (hMoved : Moved output given left after spot place)
    (hLeftover :
      Temp.IsLeftover Temp.staleAge spot.directory before
        other) :
    other ≠ place := by
  rintro rfl
  rcases hMoved.beside with ⟨name, hPlace, hUnmarked⟩
  rcases hLeftover with ⟨name', _, _, hPlace', hMarked, -⟩
  have hEq : name = name' :=
    List.singleton_inj.mp (List.append_inj_right'
      (hPlace.symm.trans hPlace') rfl)
  rw [hEq] at hUnmarked
  exact hUnmarked hMarked

/-
  Whatever the renderer left, file or directory, a move that
  succeeds takes it alone.
-/
theorem Prepared.isMoved
    {node : FileNode}
    {target : Spot}
    (hPrepared : Prepared output before given temp spot)
    (hTree : before.IsWellFormed)
    (hLeft : ∀ place, place ≠ spot.place →
      left.node? place = given.node? place)
    (hNode : left.node? spot.place = some node)
    (hBeside : target.directory = spot.directory)
    (hNe : target.place ≠ spot.place)
    (hFault : left.moveFault? spot target node = none) :
    IsMoved node left
      (left.moved spot.place target.place node)
      spot.place target.place := by
  have hFile :
      given.node? spot.place ≠ some .directory := by
    simp [hPrepared.empty]
  cases node with
  | file content age =>
      exact isMoved_file hNode hFault
  | directory =>
      apply isMoved_directory hNode hFault
      · intro rest hRest
        rw [hLeft _ (by simpa using hRest)]
        exact hPrepared.node?_below hTree hFile hRest
      · intro rest hRest
        rcases cases_of_directoryMoveFault? hFault with
          hSame | ⟨-, -, -, hFree | hBare⟩
        · exact absurd hSame.symm hNe
        · have hBelow :
              target.place ++ rest ≠ spot.place := by
            intro hEq
            have hLength := congrArg List.length hEq
            simp [Spot.place, hBeside, hRest] at hLength
          rw [hLeft _ hBelow]
          apply hPrepared.node?_below hTree _ hRest
          rw [← hLeft _ hNe, hFree]
          simp
        · exact node?_of_isBareAt hBare hRest

/-
  A move that succeeds puts in place what the renderer left,
  and changes nothing else.
-/
theorem Prepared.moved
    (hPrepared : Prepared output before given temp spot)
    (hTree : before.IsWellFormed)
    (hName : ∀ name, Path.fileName? output = some name →
      ¬ Temp.IsMarked name)
    (hHome : left.home = given.home)
    (hLeft : ∀ place, place ≠ spot.place →
      left.node? place = given.node? place)
    (hMove :
      (FileM.move temp output).run left = (.ok (), after)) :
    ∃ place, Moved output given left after spot place := by
  have hStays := hPrepared.extends_of_ne hHome hLeft
  rcases FileM.exists_of_run_move
    (spot_extends hStays hPrepared.isSpot .busy) hMove with
    ⟨target, node, hTarget, hNode, hFault, rfl⟩
  have hUnmarked : ¬ Temp.IsMarked target.name :=
    hName _ (fileName?_of_spot hTarget)
  have hNe : target.place ≠ spot.place := by
    intro hEq
    have hNames : target.name = spot.name :=
      List.singleton_inj.mp
        (List.append_inj_right' hEq rfl)
    rw [hNames] at hUnmarked
    exact hUnmarked hPrepared.isMarked
  -- The output had a spot already before the renderer was
  -- called, so whatever it left is not on the way.
  rcases Temp.spot_directory hStays hPrepared.home.1
    hPrepared.home.2 hTarget with ⟨hBeside, hGiven⟩
  have hMoved :=
    hPrepared.isMoved hTree hLeft hNode hBeside hNe hFault
  have hNodes := hMoved.node_eq
  generalize left.moved spot.place target.place node = after
    at hMoved hNodes ⊢
  have hThere : after.node? target.place = some node := by
    rw [hNodes, if_pos rfl]
  -- Only a directory takes the place of a directory.
  have hKind :
      node = .directory ∨
        (target.slashes = false ∧
          left.node? target.place ≠ some .directory) := by
    cases node with
    | file content age =>
        exact Or.inr (ne_directory_of_fileMoveFault? hFault).2
    | directory =>
        exact Or.inl rfl
  have hExtends : given.Extends after :=
    hMoved.extends hHome hLeft (by simp [hPrepared.empty])
      (hKind.imp_right And.right)
  refine ⟨target.place, ?_, ⟨target.name, ?_, hUnmarked⟩,
    ⟨node, hNode, hThere⟩, ?_, hExtends, ?_⟩
  · apply find_of_spot (spot_extends hExtends hGiven .busy)
    · simp [hThere]
    · rcases hKind with rfl | ⟨hSlashes, -⟩
      · exact Or.inr hThere
      · exact Or.inl hSlashes
  · rw [← hBeside]
    rfl
  · rw [hNodes, if_neg (Ne.symm hNe), if_pos rfl]
  · intro other hTemp hOther
    rw [hNodes, if_neg hOther, if_neg hTemp,
      hLeft other hTemp]

end RenderGraph

end Slideshow

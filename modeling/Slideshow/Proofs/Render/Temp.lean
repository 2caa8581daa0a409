import Slideshow.Proofs.FileTree.Change
import Slideshow.Proofs.FileTree.Path
import Slideshow.Render.Temp

/-
  This file proves how temporary files are named, made,
  moved into place and, as leftovers, removed.

  Key definitions include:
    * `Temp.IsMarked`
    * `Temp.IsCandidate`
    * `Temp.IsLeftover`

  Main results include:
    * `Temp.IsCandidate.extension?_eq`
    * `Temp.IsCandidate.spot`
    * `Temp.spot_directory`
    * `Temp.run_create`
    * `Error.run_drop_of_some`
    * `Temp.node?_sweep`
-/

namespace Slideshow

namespace Temp

open FileTree

variable {tree tree' : FileTree}
variable {place home : Place}

------------------------------------------------------------
-- Names
------------------------------------------------------------

/- A name that starts like those of temporary files. -/
def IsMarked (name : String) : Prop :=
  marker.toList <+: name.toList

/- It can be decided whether a name is marked. -/
instance (name : String) : Decidable (IsMarked name) :=
  inferInstanceAs (Decidable (_ <+: _))

/- The middle of a name is made of letters and digits. -/
def IsMiddle (middle : String) : Prop :=
  ∀ c ∈ middle.toList, c.isAlphanum = true

theorem toList_name (middle target : String) :
    (name middle target).toList =
      '.' :: ("storyreel-".toList ++ middle.toList ++
        (ending target).toList) := by
  unfold name
  rw [String.toList_append, String.toList_append]
  rfl

theorem isMarked_name (middle target : String) :
    IsMarked (name middle target) := by
  unfold IsMarked name
  rw [String.append_assoc, String.toList_append]
  exact List.prefix_append _ _

/- A marked name is one that counts, and no way up. -/
theorem IsMarked.counts
    {name : String}
    (hMarked : IsMarked name) :
    Path.isIdle name = false ∧ name ≠ ".." := by
  have hEmpty : name ≠ "" := by
    rintro rfl
    exact absurd hMarked (by decide)
  have hDot : name ≠ "." := by
    rintro rfl
    exact absurd hMarked (by decide)
  refine ⟨by simp [Path.isIdle, hEmpty, hDot], ?_⟩
  rintro rfl
  exact absurd hMarked (by decide)

/- The name of a temporary file holds no slashes. -/
theorem slash_not_mem_name
    {middle : String}
    (hMiddle : IsMiddle middle)
    (target : String) :
    '/' ∉ (name middle target).toList := by
  rw [toList_name]
  intro hMem
  rcases List.mem_cons.mp hMem with hDot | hMem
  · exact absurd hDot (by decide)
  · rcases List.mem_append.mp hMem with hMem | hEnding
    · rcases List.mem_append.mp hMem with hWord | hChar
      · exact absurd hWord (by decide)
      · exact absurd (hMiddle _ hChar) (by decide)
    · unfold ending at hEnding
      cases hExtension : Path.extension? target with
      | none =>
          rw [hExtension] at hEnding
          exact absurd hEnding (by decide)
      | some extension =>
          rw [hExtension] at hEnding
          have hSlash :=
            (Path.not_mem_of_extension? hExtension).2
          simp [hSlash] at hEnding

theorem isAbsolute_name (middle target : String) :
    Path.isAbsolute (name middle target) = false := by
  unfold Path.isAbsolute
  rw [toList_name]
  rfl

/- The directory of a path is never the empty text. -/
theorem directory_ne_empty (target : String) :
    directory target ≠ "" := by
  unfold directory
  cases Path.parent? target with
  | none =>
      simp
  | some parent =>
      by_cases hEmpty : parent.isEmpty = true
      · simp [hEmpty]
      · simp only [if_neg hEmpty]
        simpa using hEmpty

/-
  The directory of a path has the names that count before
  the file name, and starts where the path does.
-/
theorem steps_directory
    {target name : String}
    {before idles : List String}
    (hSegments :
      Path.segments target = before ++ name :: idles)
    (hName : Path.isIdle name = false)
    (hIdle : ∀ idle ∈ idles, Path.isIdle idle = true) :
    Path.steps (Path.segments (directory target)) =
        Path.steps before ∧
      Path.isAbsolute (directory target) =
        Path.isAbsolute target := by
  rcases Path.parent?_of_segments hSegments hName hIdle with
    ⟨parent, hParent, hSteps,
      ⟨rfl, hRelative⟩ | ⟨hNonempty, hAbsolute⟩⟩
  · have hDirectory : directory target = "." := by
      rw [directory, hParent]
      rfl
    rw [hDirectory, hRelative, ← hSteps]
    exact ⟨rfl, rfl⟩
  · have hDirectory : directory target = parent := by
      rw [directory, hParent]
      simp [hNonempty]
    rw [hDirectory]
    exact ⟨hSteps, hAbsolute⟩

------------------------------------------------------------
-- Paths of Temporary Files
------------------------------------------------------------

/- A path that a temporary file of a target may be given. -/
def IsCandidate
    (tree : FileTree)
    (target temp : String) : Prop :=
  ∃ middle, IsMiddle middle ∧
    temp = candidate tree middle target

theorem isCandidate_path
    [TempNaming]
    (tree : FileTree)
    (target : String) :
    IsCandidate tree target (path tree target) :=
  ⟨_, TempNaming.isAlphanum_of_mem tree target, rfl⟩

/- A path may be given whatever else is in the tree. -/
theorem IsCandidate.of_home_eq
    {target temp : String}
    (hTemp : IsCandidate tree target temp)
    (hHome : tree'.home = tree.home) :
    IsCandidate tree' target temp := by
  rcases hTemp with ⟨middle, hMiddle, rfl⟩
  refine ⟨middle, hMiddle, ?_⟩
  unfold candidate absolute homePath
  rw [hHome]

/-
  The names on the way to a temporary file are those of its
  directory, up to a slash at the end.
-/
theorem segments_candidate
    {middle : String}
    (hMiddle : IsMiddle middle)
    (tree : FileTree)
    (target : String) :
    ∃ names,
      Path.segments (candidate tree middle target) =
          names ++ [name middle target] ∧
        (Path.segments (tree.absolute (directory target)) =
            names ∨
          Path.segments (tree.absolute (directory target)) =
            names ++ [""]) := by
  rcases Path.segments_join
    (tree.absolute_ne_empty (directory target))
    (isAbsolute_name middle target) with
    ⟨names, hNames, hDirectory⟩
  rw [Path.segments_of_not_mem
    (slash_not_mem_name hMiddle target)] at hNames
  exact ⟨names, hNames, hDirectory⟩

/- The file name of a temporary file is its name. -/
theorem fileName?_candidate
    {middle : String}
    (hMiddle : IsMiddle middle)
    (tree : FileTree)
    (target : String) :
    Path.fileName? (candidate tree middle target) =
      some (name middle target) := by
  rcases segments_candidate hMiddle tree target with
    ⟨names, hNames, -⟩
  have hCounts := (isMarked_name middle target).counts
  exact Path.fileName?_of_segments hNames hCounts.1
    hCounts.2 (by simp)

/- A temporary file keeps the extension of its target. -/
theorem IsCandidate.extension?_eq
    {target temp : String}
    (hTemp : IsCandidate tree target temp) :
    Path.extension? temp = Path.extension? target := by
  rcases hTemp with ⟨middle, hMiddle, rfl⟩
  have hDots :
      '.' ∉ "storyreel-".toList ++ middle.toList := by
    intro hMem
    rcases List.mem_append.mp hMem with hWord | hChar
    · exact absurd hWord (by decide)
    · exact absurd (hMiddle _ hChar) (by decide)
  have hSplit :
      Path.extension? (candidate tree middle target) =
        (Path.splitName (name middle target)).2 := by
    unfold Path.extension?
    rw [fileName?_candidate hMiddle]
    rfl
  rw [hSplit]
  cases hExtension : Path.extension? target with
  | none =>
      have hName :
          (name middle target).toList =
            '.' :: ("storyreel-".toList ++
              middle.toList) := by
        simp [toList_name, ending, hExtension]
      exact Path.extension_splitName_cons hName hDots
  | some extension =>
      have hName :
          (name middle target).toList =
            ('.' :: ("storyreel-".toList ++
              middle.toList)) ++
              '.' :: extension.toList := by
        simp [toList_name, ending, hExtension]
      have hDot :=
        (Path.not_mem_of_extension? hExtension).1
      rw [Path.extension_splitName_append hName (by simp)
        hDot, String.ofList_toList]

/-
  The spot of a temporary file is a marked name in the
  directory of its target.
-/
theorem IsCandidate.spot
    {dotted : SystemFault}
    {target temp : String}
    {spot : Spot}
    (hTemp : IsCandidate tree target temp)
    (hSpot : tree.spot dotted temp = .ok spot) :
    IsMarked spot.name ∧ spot.slashes = false ∧
      tree.find (directory target) =
        .ok spot.directory := by
  rcases hTemp with ⟨middle, hMiddle, rfl⟩
  rcases segments_candidate hMiddle tree target with
    ⟨names, hNames, hDirectory⟩
  rcases spot_eq_ok_iff.mp hSpot with
    ⟨hCheck, before, hSplit, hWalk, hNode, -⟩
  have hMarked := isMarked_name middle target
  have hEmpty : name middle target ≠ "" := by
    intro hEq
    have hIdle := hMarked.counts.1
    rw [hEq] at hIdle
    exact absurd hIdle (by decide)
  rw [hNames, splitLast_concat names hEmpty] at hSplit
  simp only [Option.some.injEq, Prod.mk.injEq] at hSplit
  rcases hSplit with ⟨rfl, hName, hSlashes⟩
  refine ⟨hName ▸ hMarked, hSlashes.symm, ?_⟩
  -- What the path of the directory leads to is known for
  -- the path from the root on.
  have hBase := tree.absolute_ne_empty (directory target)
  have hCheckDirectory :
      checkPath (tree.absolute (directory target)) =
        .ok () := by
    rcases Path.exists_join_eq_append
      (tree.absolute (directory target))
      (isAbsolute_name middle target) with ⟨rest, hJoin⟩
    rw [candidate, hJoin] at hCheck
    exact checkPath_of_append hCheck hBase
  have hStart :
      tree.startOf (candidate tree middle target) =
        tree.startOf (tree.absolute (directory target)) := by
    unfold startOf candidate
    rw [Path.isAbsolute_join hBase
      (isAbsolute_name middle target)]
  rw [hStart] at hWalk
  apply find_of_absolute (directory_ne_empty target)
  refine find_eq_ok_iff.mpr ⟨hCheckDirectory, ?_⟩
  rcases hDirectory with hDirectory | hDirectory
  · rw [hDirectory]
    exact hWalk
  · rw [hDirectory]
    exact walk_concat_eq_ok_iff.mpr
      ⟨_, hWalk, enter_of_isIdle hNode rfl⟩

/-
  The spot of a path lies in the directory of the path.  If
  that is there already, so is the spot.
-/
theorem spot_directory
    {dotted : SystemFault}
    {target : String}
    {spot : Spot}
    (hExtends : tree.Extends tree')
    (hFind : tree.find (directory target) = .ok home)
    (hHome : tree.node? home = some .directory)
    (hSpot : tree'.spot dotted target = .ok spot) :
    spot.directory = home ∧
      tree.spot dotted target = .ok spot := by
  have hName := spot_name_ne hSpot
  rcases spot_eq_ok_iff.mp hSpot with
    ⟨hCheck, before, hSplit, hWalk, -, hFits⟩
  rcases (splitLast_eq_some hSplit).2 with
    ⟨blanks, hSegments, hBlanks, -⟩
  have hIdle :
      ∀ blank ∈ blanks, Path.isIdle blank = true := by
    intro blank hBlank
    rw [hBlanks blank hBlank]
    rfl
  rcases steps_directory hSegments hName.1 hIdle with
    ⟨hSteps, hAbsolute⟩
  have hStart :
      tree.startOf (directory target) =
        tree.startOf target := by
    unfold startOf
    rw [hAbsolute]
  have hAnchor :=
    node?_of_isAnchor (isAnchor_startOf tree target)
  rw [hExtends.startOf_eq] at hWalk
  have hBefore :
      tree.walk (tree.startOf target) before = .ok home := by
    have hPath := (find_eq_ok_iff.mp hFind).2
    rw [hStart, ← walk_steps_eq_ok_iff hAnchor hHome,
      hSteps, walk_steps_eq_ok_iff hAnchor hHome] at hPath
    exact hPath
  have hDirectory : spot.directory = home := by
    have hLater :=
      walk_extends hExtends hBefore
        (by simp [hExtends.node _ hHome])
    exact Except.ok.inj (hWalk.symm.trans hLater)
  refine ⟨hDirectory, spot_eq_ok_iff.mpr
    ⟨hCheck, before, hSplit, ?_, ?_, hFits⟩⟩
  · rw [hDirectory, hBefore]
  · rw [hDirectory, hHome]

------------------------------------------------------------
-- Creating and Moving
------------------------------------------------------------

/- An error in making directories holds no file. -/
theorem held?_makeParent
    (target : String)
    (tree : FileTree)
    {error : Error}
    (hRun :
      ((FileM.makeParent target).run tree).1 =
        .error error) :
    error.held? = none := by
  unfold FileM.makeParent at hRun
  cases hParent : Path.parent? target with
  | none =>
      rw [hParent] at hRun
      cases hRun
  | some parent =>
      rw [hParent] at hRun
      by_cases hEmpty : parent.isEmpty = true
      · simp only [if_pos hEmpty, FileM.run_pure] at hRun
        cases hRun
      · simp only [if_neg hEmpty, FileM.run_during] at hRun
        cases hMade :
          ((FileM.makeDirectories parent).run tree).1 with
        | error fault =>
            rw [hMade] at hRun
            cases hRun
            rfl
        | ok _ =>
            rw [hMade] at hRun
            cases hRun

/-
  Creating a temporary file makes the directories on the way
  and then, if that succeeds, a file where there was none.
  An error holds no file.
-/
theorem run_create
    [TempNaming]
    (target : String)
    (content : Bytes)
    (tree : FileTree) :
    (∃ error tree',
      (create target content).run tree =
          (.error error, tree') ∧
        error.held? = none ∧
        Gains (Path.higher target) tree tree') ∨
      ∃ temp spot tree',
        Gains (Path.higher target) tree tree' ∧
          IsCandidate tree' target temp ∧
          tree'.spot .isDirectory temp = .ok spot ∧
          tree'.node? spot.place = none ∧
          (create target content).run tree =
            (.ok temp,
              tree'.insert spot.place
                (.file content FileM.freshAge)) := by
  have hGains := FileM.makeParent_gains target tree
  simp only [create, FileM.run_bind]
  rcases hMake : (FileM.makeParent target).run tree with
    ⟨error | _, tree'⟩
  · rw [hMake] at hGains
    have hHeld :=
      held?_makeParent target tree (congrArg Prod.fst hMake)
    exact Or.inl ⟨error, tree', rfl, hHeld, hGains⟩
  · rw [hMake] at hGains
    simp only [FileM.run_get, FileM.run_during]
    have hTemp := isCandidate_path tree' target
    generalize path tree' target = temp at hTemp ⊢
    rcases FileM.run_createFile temp content tree' with
      ⟨fault, hRun⟩ | ⟨spot, hSpot, hFree, hRun⟩
    · left
      rw [hRun]
      exact ⟨_, tree', rfl, rfl, hGains⟩
    · right
      rw [hRun]
      exact ⟨temp, spot, tree', hGains, hTemp, hSpot, hFree,
        rfl⟩

------------------------------------------------------------
-- Leftovers
------------------------------------------------------------

/-
  A place in a directory holds a file with a marked name
  that is older than a number of seconds.
-/
def IsLeftover
    (maxAge : Nat)
    (home : Place)
    (tree : FileTree)
    (place : Place) : Prop :=
  ∃ name content age,
    place = home ++ [name] ∧ IsMarked name ∧
      tree.node? place = some (.file content age) ∧
      micros maxAge < age

theorem IsLeftover.node?_ne
    {maxAge : Nat}
    (hLeftover : IsLeftover maxAge home tree place) :
    tree.node? place ≠ none ∧
      tree.node? place ≠ some .directory := by
  rcases hLeftover with ⟨_, content, age, -, -, hFile, -⟩
  simp [hFile]

/- A leftover is one wherever the same file lies there. -/
theorem IsLeftover.of_eq
    {maxAge : Nat}
    (hLeftover : IsLeftover maxAge home tree place)
    (hSame : tree'.node? place = tree.node? place) :
    IsLeftover maxAge home tree' place := by
  rcases hLeftover with
    ⟨name, content, age, hPlace, hMarked, hFile, hAge⟩
  exact ⟨name, content, age, hPlace, hMarked,
    hSame.trans hFile, hAge⟩

/- Which entries of a tree are leftovers. -/
theorem isStale_iff
    {maxAge : Nat}
    {node : FileNode} :
    isStale maxAge home (place, node) = true ↔
      ∃ name content age,
        place = home ++ [name] ∧ IsMarked name ∧
          node = .file content age ∧
          micros maxAge < age := by
  cases node with
  | directory =>
      simp [isStale]
  | file content age =>
      constructor
      · intro hStale
        simp only [isStale, Bool.and_eq_true, beq_iff_eq,
          decide_eq_true_eq] at hStale
        rcases hStale with ⟨⟨hHome, hLast⟩, hAge⟩
        cases hName : place.getLast? with
        | none =>
            rw [hName] at hLast
            cases hLast
        | some name =>
            rw [hName] at hLast
            rcases List.getLast?_eq_some_iff.mp hName with
              ⟨front, hPlace⟩
            rw [hPlace, List.dropLast_concat] at hHome
            exact ⟨name, content, age,
              by rw [hPlace, hHome],
              List.isPrefixOf_iff_prefix.mp hLast, rfl,
              hAge⟩
      · rintro ⟨name, content', age', rfl, hMarked, hNode,
          hAge⟩
        cases hNode
        have hPrefix :=
          List.isPrefixOf_iff_prefix.mpr hMarked
        simp [isStale, hPrefix, hAge]

/- What a sweep leaves of a tree. -/
theorem run_sweep
    {target : String}
    (maxAge : Nat)
    (hFind : tree.find target = .ok home) :
    ((sweep target maxAge).run tree).2 =
      { tree with
        entries := tree.entries.filter fun entry =>
          !isStale maxAge home entry } := by
  simp only [sweep, StateT.run_bind, StateT.run_get,
    pure_bind, hFind, List.partition_eq_filter_filter]
  rfl

/- A sweep removes the leftovers and nothing else. -/
theorem node?_sweep
    {target : String}
    (maxAge : Nat)
    (hDistinct : (tree.entries.map Prod.fst).Nodup)
    (hFind : tree.find target = .ok home)
    (place : Place) :
    (IsLeftover maxAge home tree place ∧
      ((sweep target maxAge).run tree).2.node? place =
        none) ∨
      (¬ IsLeftover maxAge home tree place ∧
        ((sweep target maxAge).run tree).2.node? place =
          tree.node? place) := by
  rw [run_sweep maxAge hFind]
  have hLeftover :
      ∀ node, tree.node? place = some node →
        (IsLeftover maxAge home tree place ↔
          isStale maxAge home (place, node) = true) := by
    intro node hNode
    rw [isStale_iff]
    unfold IsLeftover
    simp [hNode]
  by_cases hAnchor : tree.isAnchor place = true
  · have hNode := node?_of_isAnchor hAnchor
    right
    rw [hLeftover _ hNode, hNode]
    refine ⟨by simp [isStale], ?_⟩
    exact node?_of_isAnchor hAnchor
  · rw [node?_filter hDistinct _ (by simpa using hAnchor)]
    cases hNode : tree.node? place with
    | none =>
        right
        simp [IsLeftover, hNode]
    | some node =>
        rw [hLeftover _ hNode, Option.filter_some]
        by_cases hStale :
          isStale maxAge home (place, node) = true
        · left
          simp [hStale]
        · right
          simp [hStale]

/- What is no leftover is found after a sweep as before. -/
theorem node?_sweep_of_keep
    {target : String}
    {node : FileNode}
    (maxAge : Nat)
    (hFind : tree.find target = .ok home)
    (hNode : tree.node? place = some node)
    (hKeep : isStale maxAge home (place, node) = false) :
    ((sweep target maxAge).run tree).2.node? place =
      some node := by
  rw [run_sweep maxAge hFind]
  by_cases hAnchor : tree.isAnchor place = true
  · rw [node?_of_isAnchor hAnchor] at hNode
    rw [← hNode]
    exact node?_of_isAnchor hAnchor
  · rw [node?, if_neg hAnchor] at hNode
    apply (if_neg hAnchor).trans
    exact lookup_filter_of_keep _ hNode (by simp [hKeep])

theorem extends_sweep
    {target : String}
    (maxAge : Nat)
    (hFind : tree.find target = .ok home) :
    tree.Extends ((sweep target maxAge).run tree).2 := by
  refine ⟨by rw [run_sweep maxAge hFind], ?_⟩
  intro place hNode
  exact node?_sweep_of_keep maxAge hFind hNode rfl

end Temp

------------------------------------------------------------
-- Errors That Hold a File
------------------------------------------------------------

namespace Error

/- An error that holds no file leaves the tree alone. -/
theorem run_drop_of_none
    {e : Error}
    (hHeld : e.held? = none)
    (tree : FileTree) :
    (e.drop.run tree).2 = tree := by
  unfold drop
  rw [hHeld]
  rfl

/- An error that holds a file removes it in the end. -/
theorem run_drop_of_some
    {e : Error}
    {temp : String}
    (hHeld : e.held? = some temp)
    (tree : FileTree) :
    (e.drop.run tree).2 =
      ((FileM.removeFile temp).run tree).2 := by
  unfold drop
  rw [hHeld]

end Error

end Slideshow

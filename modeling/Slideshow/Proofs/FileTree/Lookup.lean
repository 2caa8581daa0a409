import Slideshow.Proofs.FileTree.Path
import Slideshow.Proofs.FileTree.Tree
import Slideshow.Proofs.Outcome

/-
  This file proves what is found by a path, and where a path
  has a spot for a new entry.

  A lookup walks from directory to directory, so what it has
  found stays found as long as directories stay directories
  (`FileTree.Extends`); files may come and go beside it.

  Key definitions include:
    * `FileTree.IsGrounded`

  Main results include:
    * `FileTree.walk_extends`
    * `FileTree.walk_steps_eq_ok_iff`
    * `FileTree.find_extends`
    * `FileTree.find_isGrounded`
    * `FileTree.find_cases`
    * `FileTree.find_of_absolute`
    * `FileTree.spot_extends`
    * `FileTree.find_of_spot`
    * `FileTree.exists_spot_of_find`
    * `FileTree.eq_place_of_spot`
-/

namespace Slideshow

namespace FileTree

variable {tree tree' : FileTree}
variable {place next : Place}

------------------------------------------------------------
-- Walks
------------------------------------------------------------

/- The three ways in which a name leads on. -/
theorem enter_cases
    {name : String}
    (hEnter : tree.enter place name = .ok next) :
    tree.node? place = some .directory ∧
      ((Path.isIdle name = true ∧ next = place) ∨
        (name = ".." ∧ next = above place) ∨
        (Path.isIdle name = false ∧ name ≠ ".." ∧
          nameFits name = true ∧
          next = place ++ [name] ∧
          tree.node? next ≠ none)) := by
  unfold enter at hEnter
  by_cases hDirectory : tree.isDirectoryAt place = true
  · rw [if_neg (by simp [hDirectory])] at hEnter
    refine ⟨by simpa [isDirectoryAt] using hDirectory, ?_⟩
    by_cases hIdle : Path.isIdle name = true
    · rw [if_pos hIdle] at hEnter
      exact Or.inl ⟨hIdle, (Except.ok.inj hEnter).symm⟩
    · rw [if_neg hIdle] at hEnter
      by_cases hUp : name = ".."
      · rw [if_pos hUp] at hEnter
        exact Or.inr (Or.inl
          ⟨hUp, (Except.ok.inj hEnter).symm⟩)
      · rw [if_neg hUp] at hEnter
        by_cases hFits : nameFits name = true
        · rw [if_neg (by simp [hFits])] at hEnter
          cases hNode : tree.node? (place ++ [name]) with
          | none =>
              rw [hNode] at hEnter
              cases hEnter
          | some node =>
              rw [hNode] at hEnter
              have hNext := (Except.ok.inj hEnter).symm
              refine Or.inr (Or.inr ⟨by simpa using hIdle,
                hUp, hFits, hNext, ?_⟩)
              rw [hNext, hNode]
              simp
        · rw [if_pos (by simp [hFits])] at hEnter
          cases hEnter
  · rw [if_pos (by simpa using hDirectory)] at hEnter
    cases hEnter

theorem enter_of_isIdle
    {name : String}
    (hDirectory : tree.node? place = some .directory)
    (hIdle : Path.isIdle name = true) :
    tree.enter place name = .ok place := by
  simp [enter, isDirectoryAt, hDirectory, hIdle]

theorem enter_up
    (hDirectory : tree.node? place = some .directory) :
    tree.enter place ".." = .ok (above place) := by
  have hIdle : Path.isIdle ".." = false := by decide
  simp [enter, isDirectoryAt, hDirectory, hIdle]

/- Any other name leads to what is found there. -/
theorem enter_name
    {name : String}
    (hDirectory : tree.node? place = some .directory)
    (hIdle : Path.isIdle name = false)
    (hUp : name ≠ "..")
    (hFits : nameFits name = true) :
    tree.enter place name =
      if tree.node? (place ++ [name]) = none then
        .error .notFound
      else .ok (place ++ [name]) := by
  cases hNode : tree.node? (place ++ [name]) with
  | none =>
      simp [enter, isDirectoryAt, hDirectory, hIdle, hUp,
        hFits, hNode]
  | some node =>
      simp [enter, isDirectoryAt, hDirectory, hIdle, hUp,
        hFits, hNode]

/- A step stays possible while directories stay. -/
theorem enter_extends
    {name : String}
    (hExtends : tree.Extends tree')
    (hEnter : tree.enter place name = .ok next)
    (hNext : tree'.node? next ≠ none) :
    tree'.enter place name = .ok next := by
  rcases enter_cases hEnter with
    ⟨hDirectory, ⟨hIdle, rfl⟩ | ⟨rfl, rfl⟩ |
      ⟨hIdle, hUp, hFits, rfl, -⟩⟩
  · exact enter_of_isIdle (hExtends.node _ hDirectory) hIdle
  · exact enter_up (hExtends.node _ hDirectory)
  · rw [enter_name (hExtends.node _ hDirectory) hIdle hUp
      hFits, if_neg hNext]

/- The first step of a walk and the walk from there. -/
theorem walk_cons_eq_ok_iff
    {name : String}
    {names : List String} :
    tree.walk place (name :: names) = .ok next ↔
      ∃ middle, tree.enter place name = .ok middle ∧
        tree.walk middle names = .ok next := by
  rw [walk]
  cases tree.enter place name with
  | error fault =>
      simp
  | ok middle =>
      simp

/- A walk along two lists of names takes two walks. -/
theorem walk_append_eq_ok_iff
    {names names' : List String} :
    tree.walk place (names ++ names') = .ok next ↔
      ∃ middle, tree.walk place names = .ok middle ∧
        tree.walk middle names' = .ok next := by
  induction names generalizing place with
  | nil =>
      simp [walk]
  | cons name names ih =>
      rw [List.cons_append, walk_cons_eq_ok_iff]
      constructor
      · rintro ⟨first, hFirst, hRest⟩
        rcases ih.mp hRest with ⟨middle, hMiddle, hNext⟩
        exact ⟨middle,
          walk_cons_eq_ok_iff.mpr ⟨first, hFirst, hMiddle⟩,
          hNext⟩
      · rintro ⟨middle, hMiddle, hNext⟩
        rcases walk_cons_eq_ok_iff.mp hMiddle with
          ⟨first, hFirst, hRest⟩
        exact ⟨first, hFirst, ih.mpr ⟨middle, hRest, hNext⟩⟩

theorem walk_concat_eq_ok_iff
    {names : List String}
    {name : String} :
    tree.walk place (names ++ [name]) = .ok next ↔
      ∃ middle, tree.walk place names = .ok middle ∧
        tree.enter middle name = .ok next := by
  simp only [walk_append_eq_ok_iff, walk_cons_eq_ok_iff]
  simp [walk]

/- Names that do not count lead nowhere else. -/
theorem walk_of_isIdle
    {names : List String}
    (hDirectory : tree.node? place = some .directory)
    (hIdle : ∀ name ∈ names, Path.isIdle name = true) :
    tree.walk place names = .ok place := by
  induction names with
  | nil =>
      rfl
  | cons name names ih =>
      exact walk_cons_eq_ok_iff.mpr ⟨place,
        enter_of_isIdle hDirectory
          (hIdle name (List.mem_cons_self ..)),
        ih fun other hOther =>
          hIdle other (List.mem_cons_of_mem _ hOther)⟩

/-
  A walk along names that do not count stays where it is, in
  a directory if there is such a name.
-/
theorem eq_of_walk_isIdle
    {names : List String}
    (hWalk : tree.walk place names = .ok next)
    (hIdle : ∀ name ∈ names, Path.isIdle name = true) :
    next = place ∧
      (names = [] ∨
        tree.node? place = some .directory) := by
  cases names with
  | nil =>
      exact ⟨(Except.ok.inj hWalk).symm, Or.inl rfl⟩
  | cons name names =>
      rcases walk_cons_eq_ok_iff.mp hWalk with
        ⟨middle, hEnter, -⟩
      have hDirectory := (enter_cases hEnter).1
      have hStay := walk_of_isIdle hDirectory hIdle
      exact ⟨Except.ok.inj (hWalk.symm.trans hStay),
        Or.inr hDirectory⟩

/- A walk stays possible while directories stay. -/
theorem walk_extends
    {names : List String}
    (hExtends : tree.Extends tree')
    (hWalk : tree.walk place names = .ok next)
    (hNext : tree'.node? next ≠ none) :
    tree'.walk place names = .ok next := by
  induction names generalizing place with
  | nil =>
      exact hWalk
  | cons name names ih =>
      rcases walk_cons_eq_ok_iff.mp hWalk with
        ⟨middle, hEnter, hRest⟩
      -- The walk goes on from directories, and ends at
      -- what is there by assumption.
      have hMiddle : tree'.node? middle ≠ none := by
        cases names with
        | nil =>
            cases hRest
            exact hNext
        | cons second names =>
            rcases walk_cons_eq_ok_iff.mp hRest with
              ⟨_, hSecond, -⟩
            rw [hExtends.node _ (enter_cases hSecond).1]
            simp
      exact walk_cons_eq_ok_iff.mpr
        ⟨middle, enter_extends hExtends hEnter hMiddle,
          ih hRest⟩

/- A walk to a directory starts in a directory. -/
theorem directory_of_walk
    {names : List String}
    (hWalk : tree.walk place names = .ok next)
    (hNext : tree.node? next = some .directory) :
    tree.node? place = some .directory := by
  cases names with
  | nil =>
      cases hWalk
      exact hNext
  | cons name names =>
      rcases walk_cons_eq_ok_iff.mp hWalk with
        ⟨middle, hEnter, -⟩
      exact (enter_cases hEnter).1

/- Between directories, only names that count matter. -/
theorem walk_steps_eq_ok_iff
    {names : List String}
    (hPlace : tree.node? place = some .directory)
    (hNext : tree.node? next = some .directory) :
    tree.walk place (Path.steps names) = .ok next ↔
      tree.walk place names = .ok next := by
  induction names generalizing place with
  | nil =>
      rfl
  | cons name names ih =>
      by_cases hIdle : Path.isIdle name = true
      · have hSteps :
            Path.steps (name :: names) =
              Path.steps names :=
          List.filter_cons_of_neg (by simp [hIdle])
        rw [hSteps, ih hPlace, walk_cons_eq_ok_iff,
          enter_of_isIdle hPlace hIdle]
        simp
      · have hSteps :
            Path.steps (name :: names) =
              name :: Path.steps names :=
          List.filter_cons_of_pos (by simp [hIdle])
        rw [hSteps, walk_cons_eq_ok_iff,
          walk_cons_eq_ok_iff]
        constructor
        · rintro ⟨middle, hEnter, hRest⟩
          have hMiddle := directory_of_walk hRest hNext
          exact ⟨middle, hEnter, (ih hMiddle).mp hRest⟩
        · rintro ⟨middle, hEnter, hRest⟩
          have hMiddle := directory_of_walk hRest hNext
          exact ⟨middle, hEnter, (ih hMiddle).mpr hRest⟩

------------------------------------------------------------
-- Paths
------------------------------------------------------------

/- What a text must be like to be a path. -/
theorem checkPath_eq_ok_iff
    {path : String} :
    checkPath path = .ok () ↔
      '\x00' ∉ path.toList ∧ path ≠ "" ∧
        path.utf8ByteSize ≤ pathLimit := by
  unfold checkPath
  by_cases hNul : '\x00' ∈ path.toList
  · simp [hNul]
  · by_cases hEmpty : path = ""
    · simp [hEmpty]
    · by_cases hLong : pathLimit < path.utf8ByteSize
      · simp [hNul, hEmpty, hLong]
      · simp [hNul, hEmpty, hLong, Nat.not_lt.mp hLong]

/- A part of a path from its start is a path. -/
theorem checkPath_of_append
    {path rest : String}
    (hCheck : checkPath (path ++ rest) = .ok ())
    (hNonempty : path ≠ "") :
    checkPath path = .ok () := by
  rcases checkPath_eq_ok_iff.mp hCheck with
    ⟨hNul, -, hLimit⟩
  rw [String.toList_append, List.mem_append] at hNul
  rw [String.utf8ByteSize_append] at hLimit
  exact checkPath_eq_ok_iff.mpr
    ⟨fun hMem => hNul (Or.inl hMem), hNonempty, by omega⟩

/- A part of a path up to its end is a path. -/
theorem checkPath_of_append_right
    {path front : String}
    (hCheck : checkPath (front ++ path) = .ok ())
    (hNonempty : path ≠ "") :
    checkPath path = .ok () := by
  rcases checkPath_eq_ok_iff.mp hCheck with
    ⟨hNul, -, hLimit⟩
  rw [String.toList_append, List.mem_append] at hNul
  rw [String.utf8ByteSize_append] at hLimit
  exact checkPath_eq_ok_iff.mpr
    ⟨fun hMem => hNul (Or.inr hMem), hNonempty, by omega⟩

/- A path is looked up by checking it and walking. -/
theorem find_eq_ok_iff
    {path : String} :
    tree.find path = .ok place ↔
      checkPath path = .ok () ∧
        tree.walk (tree.startOf path) (Path.segments path) =
          .ok place := by
  unfold find
  rw [Outcome.bind_eq_ok_iff]
  constructor
  · rintro ⟨_, hCheck, hWalk⟩
    exact ⟨hCheck, hWalk⟩
  · rintro ⟨hCheck, hWalk⟩
    exact ⟨(), hCheck, hWalk⟩

theorem Extends.startOf_eq
    (hExtends : tree.Extends tree')
    (path : String) :
    tree'.startOf path = tree.startOf path := by
  unfold startOf
  rw [hExtends.home_eq]

/- What was found stays found while directories stay. -/
theorem find_extends
    {path : String}
    (hExtends : tree.Extends tree')
    (hFind : tree.find path = .ok place)
    (hPlace : tree'.node? place ≠ none) :
    tree'.find path = .ok place := by
  rcases find_eq_ok_iff.mp hFind with ⟨hCheck, hWalk⟩
  rw [← hExtends.startOf_eq] at hWalk
  exact find_eq_ok_iff.mpr
    ⟨hCheck, walk_extends hExtends hWalk hPlace⟩

/- A place that exists with all directories above it. -/
def IsGrounded (tree : FileTree) (place : Place) : Prop :=
  tree.node? place ≠ none ∧
    ∀ higher, higher <+: place →
      higher = place ∨
        tree.node? higher = some .directory

/- An anchor with all anchors above it is grounded. -/
theorem isGrounded_of_isAnchor
    (hAnchor : tree.isAnchor place = true) :
    tree.IsGrounded place := by
  refine ⟨by simp [node?_of_isAnchor hAnchor], ?_⟩
  intro higher hHigher
  right
  exact node?_of_isAnchor
    (isAnchor_of_below hHigher hAnchor)

/- The directory above a grounded directory is one. -/
theorem IsGrounded.above
    (hGrounded : tree.IsGrounded place) :
    tree.IsGrounded (above place) ∧
      tree.node? (FileTree.above place) =
        some .directory := by
  rcases List.eq_nil_or_concat' place with
    rfl | ⟨higher, name, rfl⟩
  · have hRoot : tree.isAnchor [] = true := rfl
    exact ⟨isGrounded_of_isAnchor hRoot,
      node?_of_isAnchor hRoot⟩
  · have hAbove : FileTree.above (higher ++ [name]) = higher :=
      List.dropLast_concat
    have hDirectory :
        tree.node? higher = some .directory := by
      apply (hGrounded.2 higher
        (List.prefix_append _ _)).resolve_left
      simp
    rw [hAbove]
    refine ⟨⟨by simp [hDirectory], ?_⟩, hDirectory⟩
    intro other hOther
    rcases hGrounded.2 other
      (hOther.trans (List.prefix_append _ _)) with
      rfl | hNode
    · exact absurd hOther.length_le (by simp)
    · exact Or.inr hNode

/- A step leads from a grounded place to one. -/
theorem IsGrounded.enter
    {name : String}
    (hGrounded : tree.IsGrounded place)
    (hEnter : tree.enter place name = .ok next) :
    tree.IsGrounded next := by
  rcases enter_cases hEnter with
    ⟨hDirectory, ⟨-, rfl⟩ | ⟨-, rfl⟩ |
      ⟨-, -, -, rfl, hNode⟩⟩
  · exact hGrounded
  · exact hGrounded.above.1
  · refine ⟨hNode, ?_⟩
    intro higher hHigher
    rcases List.prefix_concat_iff.mp hHigher with
      rfl | hHigher
    · exact Or.inl rfl
    · right
      rcases hGrounded.2 higher hHigher with rfl | hNode
      · exact hDirectory
      · exact hNode

/- A walk leads from a grounded place to one. -/
theorem IsGrounded.walk
    {names : List String}
    (hGrounded : tree.IsGrounded place)
    (hWalk : tree.walk place names = .ok next) :
    tree.IsGrounded next := by
  induction names generalizing place with
  | nil =>
      cases hWalk
      exact hGrounded
  | cons name names ih =>
      rcases walk_cons_eq_ok_iff.mp hWalk with
        ⟨middle, hEnter, hRest⟩
      exact ih (hGrounded.enter hEnter) hRest

theorem isAnchor_startOf
    (tree : FileTree)
    (path : String) :
    tree.isAnchor (tree.startOf path) = true := by
  unfold startOf
  rw [isAnchor_iff]
  by_cases hAbsolute : Path.isAbsolute path = true
  · rw [if_pos hAbsolute]
    exact List.nil_prefix
  · rw [if_neg hAbsolute]

theorem walk_isGrounded
    {path : String}
    {names : List String}
    (hWalk : tree.walk (tree.startOf path) names = .ok place) :
    tree.IsGrounded place :=
  (isGrounded_of_isAnchor
    (isAnchor_startOf tree path)).walk hWalk

/- What is found is grounded. -/
theorem find_isGrounded
    {path : String}
    (hFind : tree.find path = .ok place) :
    tree.IsGrounded place :=
  walk_isGrounded (find_eq_ok_iff.mp hFind).2

theorem pathExists_of_find
    {path : String}
    (hFind : tree.find path = .ok place) :
    tree.pathExists path = true := by
  have hNode := (find_isGrounded hFind).1
  rw [pathExists, nodeAt?, hFind]
  simpa [Option.isSome_iff_ne_none] using hNode

/-
  What is found by a path is an anchor, a directory above
  another one, or has the file name of the path.
-/
theorem find_cases
    {path : String}
    (hFind : tree.find path = .ok place) :
    tree.isAnchor place = true ∨
      (∃ lower, tree.IsGrounded lower ∧
        tree.node? lower = some .directory ∧
        place = above lower) ∨
      ∃ directory name, place = directory ++ [name] ∧
        Path.fileName? path = some name := by
  have hWalk := (find_eq_ok_iff.mp hFind).2
  rcases Path.exists_last_name (Path.segments path) with
    hIdle | ⟨before, name, idles, hSegments, hName, hIdle⟩
  · left
    rw [(eq_of_walk_isIdle hWalk hIdle).1]
    exact isAnchor_startOf tree path
  · right
    rw [hSegments] at hWalk
    rcases walk_append_eq_ok_iff.mp hWalk with
      ⟨lower, hBefore, hRest⟩
    rcases walk_cons_eq_ok_iff.mp hRest with
      ⟨last, hEnter, hStay⟩
    rcases eq_of_walk_isIdle hStay hIdle with ⟨rfl, -⟩
    rcases enter_cases hEnter with
      ⟨hDirectory, ⟨hIdle', -⟩ | ⟨-, hAbove⟩ |
        ⟨-, hUp, -, hPlace, -⟩⟩
    · rw [hName] at hIdle'
      cases hIdle'
    · exact Or.inl ⟨lower, walk_isGrounded hBefore,
        hDirectory, hAbove⟩
    · exact Or.inr ⟨lower, name, hPlace,
        Path.fileName?_of_segments hSegments hName hUp
          hIdle⟩

------------------------------------------------------------
-- Absolute Paths
------------------------------------------------------------

theorem counts_of_mem_home
    {name : String}
    (hName : name ∈ tree.home) :
    Path.isIdle name = false ∧ name ≠ ".." ∧
      nameFits name = true ∧ '/' ∉ name.toList := by
  have hEntry := tree.isEntryName_of_mem name hName
  simpa [isEntryName, and_assoc] using hEntry

/-
  The names of the working directory lead to it.  The
  induction is on the names ahead, from the anchor that has
  been reached.
-/
theorem walk_home
    {front names : Place}
    (hHome : front ++ names = tree.home) :
    tree.walk front names = .ok tree.home := by
  induction names generalizing front with
  | nil =>
      rw [← hHome, List.append_nil]
      rfl
  | cons name names ih =>
      have hName : name ∈ tree.home := by
        rw [← hHome]
        simp
      rcases counts_of_mem_home hName with
        ⟨hIdle, hUp, hFits, -⟩
      have hSplit :
          front ++ [name] ++ names = tree.home := by
        rw [← hHome, List.append_assoc]
        rfl
      have hHere : tree.isAnchor front = true :=
        isAnchor_iff.mpr ⟨_, hHome⟩
      have hNext : tree.isAnchor (front ++ [name]) = true :=
        isAnchor_iff.mpr ⟨_, hSplit⟩
      refine walk_cons_eq_ok_iff.mpr
        ⟨front ++ [name], ?_, ih hSplit⟩
      rw [enter_name (node?_of_isAnchor hHere) hIdle hUp
        hFits, node?_of_isAnchor hNext]
      simp

/- The path of the working directory leads to it. -/
theorem walk_homePath (tree : FileTree) :
    tree.walk [] (Path.segments tree.homePath) =
      .ok tree.home := by
  have hRoot : tree.node? [] = some .directory :=
    node?_of_isAnchor rfl
  have hHome : tree.node? tree.home = some .directory :=
    node?_of_isAnchor (isAnchor_iff.mpr List.prefix_rfl)
  have hSteps :
      Path.steps (Path.segments tree.homePath) =
        tree.home := by
    have hText :
        tree.homePath = "/" ++ Text.join "/" tree.home :=
      rfl
    have hBlank (names : List String) :
        Path.steps ("" :: names) = Path.steps names :=
      List.filter_cons_of_neg (by decide)
    rw [hText, Path.segments_slash, hBlank,
      Path.steps_segments_textJoin fun name hName =>
        (counts_of_mem_home hName).2.2.2]
    apply List.filter_eq_self.mpr
    intro name hName
    simp [(counts_of_mem_home hName).1]
  rw [← walk_steps_eq_ok_iff hRoot hHome, hSteps]
  exact walk_home rfl

/- A path from the root on is never the empty text. -/
theorem absolute_ne_empty
    (tree : FileTree)
    (path : String) :
    tree.absolute path ≠ "" := by
  unfold absolute
  by_cases hAbsolute : Path.isAbsolute path = true
  · rw [Path.join, if_pos hAbsolute]
    rintro rfl
    exact absurd hAbsolute (by decide)
  · rw [Bool.not_eq_true] at hAbsolute
    rcases Path.exists_join_eq_append tree.homePath
      hAbsolute with ⟨rest, hJoin⟩
    rw [hJoin]
    simp [homePath, Path.ofSegments]

/- What an absolute path leads to, the path leads to. -/
theorem find_of_absolute
    {path : String}
    (hPath : path ≠ "")
    (hFind : tree.find (tree.absolute path) = .ok place) :
    tree.find path = .ok place := by
  unfold absolute at hFind
  by_cases hAbsolute : Path.isAbsolute path = true
  · rwa [Path.join, if_pos hAbsolute] at hFind
  · rw [Bool.not_eq_true] at hAbsolute
    have hBase : tree.homePath ≠ "" := by
      simp [homePath, Path.ofSegments]
    rcases find_eq_ok_iff.mp hFind with ⟨hCheck, hWalk⟩
    rcases Path.segments_join hBase hAbsolute with
      ⟨names, hNames, hBaseNames⟩
    have hStart :
        tree.startOf (Path.join tree.homePath path) = [] := by
      have hSlash : Path.isAbsolute tree.homePath = true := by
        simp [homePath, Path.ofSegments, Path.isAbsolute]
      unfold startOf
      rw [Path.isAbsolute_join hBase hAbsolute,
        if_pos hSlash]
    rw [hStart, hNames] at hWalk
    rcases walk_append_eq_ok_iff.mp hWalk with
      ⟨middle, hMiddle, hRest⟩
    have hHome : middle = tree.home := by
      have hWhole := walk_homePath tree
      rcases hBaseNames with hBaseNames | hBaseNames
      · rw [hBaseNames, hMiddle] at hWhole
        exact Except.ok.inj hWhole
      · rw [hBaseNames, walk_concat_eq_ok_iff] at hWhole
        rcases hWhole with ⟨other, hOther, hStay⟩
        have hSame : other = middle :=
          Except.ok.inj (hOther.symm.trans hMiddle)
        rw [enter_of_isIdle (enter_cases hStay).1 rfl]
          at hStay
        rw [← hSame]
        exact Except.ok.inj hStay
    rw [hHome] at hRest
    refine find_eq_ok_iff.mpr ⟨?_, ?_⟩
    · rcases Path.exists_join_eq_append_self tree.homePath
        path with ⟨front, hJoin⟩
      rw [hJoin] at hCheck
      exact checkPath_of_append_right hCheck hPath
    · unfold startOf
      rwa [if_neg (by simp [hAbsolute])]

------------------------------------------------------------
-- Spots
------------------------------------------------------------

/- The last name is followed by empty ones alone. -/
theorem splitLast_eq_some
    {names before : List String}
    {name : String}
    {slashes : Bool}
    (hSplit :
      splitLast names = some (before, name, slashes)) :
    name ≠ "" ∧
      ∃ blanks, names = before ++ name :: blanks ∧
        (∀ blank ∈ blanks, blank = "") ∧
        (slashes = false → blanks = []) := by
  unfold splitLast at hSplit
  have hParts :=
    List.takeWhile_append_dropWhile
      (p := String.isEmpty) (l := names.reverse)
  cases hDrop :
    names.reverse.dropWhile String.isEmpty with
  | nil =>
      rw [hDrop] at hSplit
      cases hSplit
  | cons last earlier =>
      rw [hDrop] at hSplit hParts
      simp only [Option.some.injEq, Prod.mk.injEq] at hSplit
      rcases hSplit with ⟨rfl, rfl, rfl⟩
      have hLast : last.isEmpty = false := by
        have hHead :=
          List.head?_dropWhile_not
            String.isEmpty names.reverse
        rw [hDrop] at hHead
        simpa using hHead
      have hNames :
          names = earlier.reverse ++ last ::
            (names.reverse.takeWhile
              String.isEmpty).reverse := by
        have hReverse := congrArg List.reverse hParts
        simpa using hReverse.symm
      refine ⟨by simpa using hLast, _, hNames, ?_, ?_⟩
      · intro blank hBlank
        have hEmpty := List.mem_takeWhile_imp
          (List.mem_reverse.mp hBlank)
        simpa using hEmpty
      · intro hSlashes
        cases hReverse : names.reverse with
        | nil =>
            rfl
        | cons final rest =>
            have hFinal : final ≠ "" := by
              rintro rfl
              rw [List.getLast?_eq_head?_reverse,
                hReverse] at hSlashes
              simp at hSlashes
            simp [hFinal]

theorem splitLast_concat
    (names : List String)
    {name : String}
    (hName : name ≠ "") :
    splitLast (names ++ [name]) =
      some (names, name, false) := by
  simp [splitLast, hName]

/- What it takes for a path to have a spot. -/
theorem spot_eq_ok_iff
    {dotted : SystemFault}
    {path : String}
    {spot : Spot} :
    tree.spot dotted path = .ok spot ↔
      checkPath path = .ok () ∧
        ∃ before,
          splitLast (Path.segments path) =
              some (before, spot.name, spot.slashes) ∧
            tree.walk (tree.startOf path) before =
              .ok spot.directory ∧
            tree.node? spot.directory = some .directory ∧
            spot.name ≠ "." ∧ spot.name ≠ ".." ∧
            nameFits spot.name = true := by
  unfold FileTree.spot
  rw [Outcome.bind_eq_ok_iff]
  constructor
  · rintro ⟨_, hCheck, hSpot⟩
    refine ⟨hCheck, ?_⟩
    cases hSplit : splitLast (Path.segments path) with
    | none =>
        rw [hSplit] at hSpot
        cases hSpot
    | some parts =>
        rcases parts with ⟨before, name, slashes⟩
        rw [hSplit] at hSpot
        rcases Outcome.bind_eq_ok_iff.mp hSpot with
          ⟨directory, hWalk, hRest⟩
        by_cases hDirectory :
          tree.isDirectoryAt directory = true
        · rw [if_neg (by simp [hDirectory])] at hRest
          by_cases hDots : name = "." ∨ name = ".."
          · rw [if_pos hDots] at hRest
            cases hRest
          · rw [if_neg hDots] at hRest
            by_cases hFits : nameFits name = true
            · rw [if_neg (by simp [hFits])] at hRest
              cases hRest
              exact ⟨before, rfl, hWalk,
                by simpa [isDirectoryAt] using hDirectory,
                fun hDot => hDots (Or.inl hDot),
                fun hUp => hDots (Or.inr hUp), hFits⟩
            · rw [if_pos (by simp [hFits])] at hRest
              cases hRest
        · rw [if_pos (by simpa using hDirectory)] at hRest
          cases hRest
  · rintro ⟨hCheck, before, hSplit, hWalk, hDirectory,
      hDot, hUp, hFits⟩
    refine ⟨(), hCheck, ?_⟩
    rw [hSplit]
    refine Outcome.bind_eq_ok_iff.mpr ⟨_, hWalk, ?_⟩
    simp [isDirectoryAt, hDirectory, hDot, hUp, hFits]
    rfl

/- A spot stays one while directories stay. -/
theorem spot_extends
    {dotted : SystemFault}
    {path : String}
    {spot : Spot}
    (hExtends : tree.Extends tree')
    (hSpot : tree.spot dotted path = .ok spot)
    (dotted' : SystemFault) :
    tree'.spot dotted' path = .ok spot := by
  rcases spot_eq_ok_iff.mp hSpot with
    ⟨hCheck, before, hSplit, hWalk, hDirectory, hName⟩
  have hStays := hExtends.node _ hDirectory
  refine spot_eq_ok_iff.mpr
    ⟨hCheck, before, hSplit, ?_, hStays, hName⟩
  rw [hExtends.startOf_eq]
  exact walk_extends hExtends hWalk (by simp [hStays])

theorem spot_name_ne
    {dotted : SystemFault}
    {path : String}
    {spot : Spot}
    (hSpot : tree.spot dotted path = .ok spot) :
    Path.isIdle spot.name = false ∧ spot.name ≠ ".." := by
  rcases spot_eq_ok_iff.mp hSpot with
    ⟨-, before, hSplit, -, -, hDot, hUp, -⟩
  have hEmpty := (splitLast_eq_some hSplit).1
  exact ⟨by simp [Path.isIdle, hEmpty, hDot], hUp⟩

/- The last name of a spot is the file name of the path. -/
theorem fileName?_of_spot
    {dotted : SystemFault}
    {path : String}
    {spot : Spot}
    (hSpot : tree.spot dotted path = .ok spot) :
    Path.fileName? path = some spot.name := by
  rcases spot_name_ne hSpot with ⟨hIdle, hUp⟩
  rcases spot_eq_ok_iff.mp hSpot with ⟨-, before, hSplit, -⟩
  rcases (splitLast_eq_some hSplit).2 with
    ⟨blanks, hSegments, hBlanks, -⟩
  refine Path.fileName?_of_segments hSegments hIdle hUp ?_
  intro blank hBlank
  rw [hBlanks blank hBlank]
  rfl

/-
  What lies at a spot is found by its path, unless slashes
  ask for a directory.
-/
theorem find_of_spot
    {dotted : SystemFault}
    {path : String}
    {spot : Spot}
    (hSpot : tree.spot dotted path = .ok spot)
    (hNode : tree.node? spot.place ≠ none)
    (hSlashes : spot.slashes = false ∨
      tree.node? spot.place = some .directory) :
    tree.find path = .ok spot.place := by
  rcases spot_name_ne hSpot with ⟨hIdle, hUp⟩
  rcases spot_eq_ok_iff.mp hSpot with
    ⟨hCheck, before, hSplit, hWalk, hDirectory, -, -, hFits⟩
  rcases (splitLast_eq_some hSplit).2 with
    ⟨blanks, hSegments, hBlanks, hNone⟩
  refine find_eq_ok_iff.mpr ⟨hCheck, ?_⟩
  rw [hSegments]
  have hEnter :
      tree.enter spot.directory spot.name =
        .ok spot.place := by
    rw [enter_name hDirectory hIdle hUp hFits]
    exact if_neg hNode
  refine walk_append_eq_ok_iff.mpr
    ⟨_, hWalk, walk_cons_eq_ok_iff.mpr ⟨_, hEnter, ?_⟩⟩
  rcases hSlashes with hSlashes | hDirectory
  · rw [hNone hSlashes]
    rfl
  · apply walk_of_isIdle hDirectory
    intro blank hBlank
    rw [hBlanks blank hBlank]
    rfl

/- What is found by a path that has a spot lies there. -/
theorem eq_place_of_spot
    {dotted : SystemFault}
    {path : String}
    {spot : Spot}
    (hSpot : tree.spot dotted path = .ok spot)
    (hFind : tree.find path = .ok place) :
    place = spot.place := by
  rcases spot_name_ne hSpot with ⟨hIdle, hUp⟩
  rcases spot_eq_ok_iff.mp hSpot with
    ⟨-, before, hSplit, hWalk, -⟩
  rcases (splitLast_eq_some hSplit).2 with
    ⟨blanks, hSegments, hBlanks, -⟩
  have hFound := (find_eq_ok_iff.mp hFind).2
  rw [hSegments] at hFound
  rcases walk_append_eq_ok_iff.mp hFound with
    ⟨directory, hBefore, hRest⟩
  rcases walk_cons_eq_ok_iff.mp hRest with
    ⟨found, hEnter, hStay⟩
  have hDirectory : directory = spot.directory :=
    Except.ok.inj (hBefore.symm.trans hWalk)
  have hFoundEq : found = spot.place := by
    rcases (enter_cases hEnter).2 with
      ⟨hIdle', -⟩ | ⟨hUp', -⟩ | ⟨-, -, -, rfl, -⟩
    · rw [hIdle] at hIdle'
      cases hIdle'
    · exact absurd hUp' hUp
    · rw [hDirectory]
      rfl
  have hPlace := (eq_of_walk_isIdle hStay (by
    intro blank hBlank
    rw [hBlanks blank hBlank]
    rfl)).1
  rw [hPlace, hFoundEq]

/-
  A file that is found by a path is the one for which the
  path has a spot.
-/
theorem exists_spot_of_find
    {path : String}
    {content : Bytes}
    {age : Nat}
    (dotted : SystemFault)
    (hFind : tree.find path = .ok place)
    (hNode : tree.node? place = some (.file content age)) :
    ∃ spot, tree.spot dotted path = .ok spot ∧
      spot.place = place ∧ spot.slashes = false := by
  rcases find_eq_ok_iff.mp hFind with ⟨hCheck, hWalk⟩
  have hFile : tree.node? place ≠ some .directory := by
    simp [hNode]
  rcases Path.exists_last_name (Path.segments path) with
    hIdle | ⟨before, name, idles, hSegments, hName, hIdle⟩
  · -- Without names, the path leads to where it starts.
    have hStart := (eq_of_walk_isIdle hWalk hIdle).1
    rw [hStart] at hFile
    exact absurd
      (node?_of_isAnchor (isAnchor_startOf tree path)) hFile
  · rw [hSegments] at hWalk
    rcases walk_append_eq_ok_iff.mp hWalk with
      ⟨lower, hBefore, hRest⟩
    rcases walk_cons_eq_ok_iff.mp hRest with
      ⟨last, hEnter, hStay⟩
    rcases eq_of_walk_isIdle hStay hIdle with
      ⟨rfl, rfl | hDirectory⟩
    · rcases enter_cases hEnter with
        ⟨hLower, ⟨-, rfl⟩ | ⟨-, rfl⟩ |
          ⟨-, hUp, hFits, rfl, -⟩⟩
      · exact absurd hLower hFile
      · exact absurd (walk_isGrounded hBefore).above.2 hFile
      · have hCounts : name ≠ "" ∧ name ≠ "." := by
          simpa [Path.isIdle] using hName
        refine ⟨⟨lower, name, false⟩, ?_, rfl, rfl⟩
        refine spot_eq_ok_iff.mpr ⟨hCheck, before, ?_,
          hBefore, hLower, hCounts.2, hUp, hFits⟩
        rw [hSegments]
        exact splitLast_concat before hCounts.1
    · exact absurd hDirectory hFile

/- A file that is found has the file name of the path. -/
theorem find_file
    {path : String}
    {content : Bytes}
    {age : Nat}
    (hFind : tree.find path = .ok place)
    (hNode : tree.node? place = some (.file content age)) :
    ∃ directory name, place = directory ++ [name] ∧
      Path.fileName? path = some name := by
  rcases exists_spot_of_find .busy hFind hNode with
    ⟨spot, hSpot, rfl, -⟩
  exact ⟨spot.directory, spot.name, rfl,
    fileName?_of_spot hSpot⟩

end FileTree

end Slideshow

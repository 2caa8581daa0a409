import Slideshow.Proofs.Render.Temp

/-
  This file proves what is left of files that were written
  one after the other by way of temporary ones.

  A file that was written is found by its path, at a place
  with the file name of the path.  Beside it there are only
  new directories, so nothing that was there is lost: what
  was written earlier stays, and it stays as it was if the
  later paths lead to other places.  Paths with different
  file names do.

  Key definitions include:
    * `Temp.IsWritten`
    * `Temp.IsUnwritten`
    * `Temp.AreWritten`

  Main results include:
    * `Temp.isWritten_of_run_write`
    * `Temp.isUnwritten_of_run_write`
    * `Temp.AreWritten.exists_found`
    * `Temp.AreWritten.rest`
    * `Temp.AreWritten.read_eq`
-/

namespace Slideshow

namespace Temp

open FileTree

variable {before middle after : FileTree}
variable {target path : String}
variable {content : Bytes}
variable {place other : Place}
variable {files : List (String × Bytes)}

------------------------------------------------------------
-- One File
------------------------------------------------------------

/-
  A file has been written: its path leads to a place with
  its file name, where there was no directory, and all other
  places are as they were, but for new directories on the
  way.
-/
structure IsWritten
    (target : String)
    (content : Bytes)
    (before after : FileTree)
    (place : Place) : Prop where
  found : after.find target = .ok place
  named : ∃ home name, place = home ++ [name] ∧
    Path.fileName? target = some name
  free : before.node? place ≠ some .directory
  holds : after.node? place =
    some (.file content FileM.freshAge)
  home_eq : after.home = before.home
  rest : ∀ other, other ≠ place →
    after.node? other = before.node? other ∨
      IsMade (Path.higher target) before after other

/-
  Once the directories are made and the temporary file is
  created, a move that succeeds leaves the file written.
-/
theorem isWritten_of_gains
    {made : FileTree}
    {temp : String}
    {spot : Spot}
    (hGains : Gains (Path.higher target) before made)
    (hSpot : made.spot .isDirectory temp = .ok spot)
    (hFree : made.node? spot.place = none)
    (hMove : (FileM.move temp target).run
      (made.insert spot.place
        (.file content FileM.freshAge)) = (.ok (), after)) :
    ∃ place, IsWritten target content before after place := by
  have hPut :=
    isPut_insert (.file content FileM.freshAge) hFree
  generalize made.insert spot.place
    (.file content FileM.freshAge) = created at hPut hMove
  have hHere := hPut.here
  rcases FileM.exists_of_run_move
    (spot_extends hPut.extends hSpot .busy) hMove with
    ⟨goal, node, hGoal, hNode, hFault, rfl⟩
  have hContent : node = .file content FileM.freshAge :=
    Option.some.inj (hNode.symm.trans hHere)
  subst hContent
  rcases ne_directory_of_fileMoveFault? hFault with
    ⟨-, hSlashes, hFile⟩
  have hMoved := isMoved_file hNode hFault
  have hNodes := hMoved.node_eq
  generalize created.moved spot.place goal.place
    (.file content FileM.freshAge) = after
      at hMoved hNodes ⊢
  have hHolds :
      after.node? goal.place =
        some (.file content FileM.freshAge) := by
    rw [hNodes, if_pos rfl]
  have hStays : created.Extends after :=
    hMoved.extends rfl (fun _ _ => rfl) (by simp [hHere])
      (Or.inr hFile)
  have hExtends := hPut.extends.trans hStays
  have hHome := hExtends.home_eq.trans hGains.home_eq
  refine ⟨goal.place, ?_, ?_, ?_, hHolds, hHome, ?_⟩
  · apply find_of_spot (spot_extends hStays hGoal .busy)
    · simp [hHolds]
    · exact Or.inl hSlashes
  · exact ⟨goal.directory, goal.name, rfl,
      fileName?_of_spot hGoal⟩
  · intro hDirectory
    exact hFile (hPut.extends.node _
      (hGains.extends.node _ hDirectory))
  · intro other hOther
    have hAfter := hNodes other
    rw [if_neg hOther] at hAfter
    rcases hGains.node other with hSame | hNew
    · left
      by_cases hTemp : other = spot.place
      · rw [hAfter, if_pos hTemp, ← hSame, hTemp, hFree]
      · rw [hAfter, if_neg hTemp, hPut.there other hTemp,
          hSame]
    · exact Or.inr (hNew.extends hExtends)

/- A write that succeeds leaves the file written. -/
theorem isWritten_of_run_write
    [TempNaming]
    (hRun :
      (write target content).run before = (.ok (), after)) :
    ∃ place, IsWritten target content before after place := by
  simp only [write, FileM.run_bind] at hRun
  rcases run_create target content before with
    ⟨error, made, hCreate, -, -⟩ |
    ⟨temp, spot, made, hGains, -, hSpot, hFree, hCreate⟩
  · rw [hCreate] at hRun
    cases hRun
  · rw [hCreate] at hRun
    simp only [FileM.run_during] at hRun
    rcases hMove : (FileM.move temp target).run
      (made.insert spot.place
        (.file content FileM.freshAge)) with
      ⟨fault | _, moved⟩
    · rw [hMove] at hRun
      cases hRun
    · rw [hMove] at hRun
      rw [← (Prod.mk.inj hRun).2]
      exact isWritten_of_gains hGains hSpot hFree hMove

/-
  A file could not be written, and the entry at its path is
  kept.  While the error is alive, it may hold the temporary
  file, where nothing was before.  Once it is dropped, there
  are only new directories.
-/
structure IsUnwritten
    (target : String)
    (content : Bytes)
    (before after : FileTree)
    (e : Error) : Prop where
  kept : KeepsEntry target before after
  dropped :
    Gains (Path.higher target) before (e.drop.run after).2
  held : ∀ place,
    after.node? place =
        (e.drop.run after).2.node? place ∨
      ∃ temp, e.held? = some temp ∧
        IsCandidate after target temp ∧
        after.find temp = .ok place ∧
        before.node? place = none ∧
        after.node? place =
          some (.file content FileM.freshAge) ∧
        (e.drop.run after).2.node? place = none

/-
  Once the temporary file is removed again, nothing is left
  but the directories that were made for it.
-/
theorem gains_of_removeFile
    {made : FileTree}
    {temp : String}
    {spot : Spot}
    (hGains : Gains (Path.higher target) before made)
    (hTemp : IsCandidate made target temp)
    (hSpot : made.spot .isDirectory temp = .ok spot)
    (hFree : made.node? spot.place = none)
    (content : Bytes) :
    Gains (Path.higher target) before
      ((FileM.removeFile temp).run
        (made.insert spot.place
          (.file content FileM.freshAge))).2 := by
  have hPut :=
    isPut_insert (.file content FileM.freshAge) hFree
  have hRemoved :=
    FileM.node?_removeFile
      (spot_extends hPut.extends hSpot .isDirectory)
      (hTemp.spot hSpot).2.1 hPut.isAnchor_eq
  have hDistinct (hBefore :
      (before.entries.map Prod.fst).Nodup) :=
    FileM.nodup_removeFile temp
      (nodup_insert (hGains.distinct hBefore) spot.place
        (.file content FileM.freshAge))
  generalize made.insert spot.place
    (.file content FileM.freshAge) = created
      at hPut hRemoved hDistinct ⊢
  have hHome := FileM.home_removeFile temp created
  generalize ((FileM.removeFile temp).run created).2 = after
    at hRemoved hDistinct hHome ⊢
  have hSame (place : Place) :
      after.node? place = made.node? place := by
    rw [hRemoved]
    by_cases hPlace : place = spot.place
    · simp [hPlace, hPut.here, hFree]
    · simp [hPlace, hPut.there place hPlace]
  have hHomes := hHome.trans hPut.home_eq
  have hExtends : made.Extends after :=
    ⟨hHomes, fun place hNode => (hSame place).trans hNode⟩
  refine ⟨hHomes.trans hGains.home_eq, hDistinct, ?_⟩
  intro place
  rw [hSame place]
  rcases hGains.node place with hOld | hMade
  · exact Or.inl hOld
  · exact Or.inr (hMade.extends hExtends)

/-
  As long as the temporary file is there, the entry at the
  target is kept.  If the target led to the temporary file,
  the move would not have failed.
-/
theorem keepsEntry_of_move
    {made : FileTree}
    {temp : String}
    {spot : Spot}
    {fault : SystemFault}
    (hGains : Gains (Path.higher target) before made)
    (hTemp : IsCandidate made target temp)
    (hSpot : made.spot .isDirectory temp = .ok spot)
    (hFree : made.node? spot.place = none)
    (hMove : (FileM.move temp target).run
      (made.insert spot.place
        (.file content FileM.freshAge)) =
          (.error fault, after)) :
    KeepsEntry target before
      (made.insert spot.place
        (.file content FileM.freshAge)) := by
  have hPut :=
    isPut_insert (.file content FileM.freshAge) hFree
  generalize made.insert spot.place
    (.file content FileM.freshAge) = created at hPut hMove ⊢
  constructor
  · intro place hFind
    have hNode := (find_isGrounded hFind).1
    have hMade := hGains.node_of_ne_none hNode
    have hPlace : place ≠ spot.place := by
      rintro rfl
      rw [hFree] at hMade
      exact hNode hMade.symm
    have hSame : created.node? place = before.node? place :=
      (hPut.there place hPlace).trans hMade
    refine ⟨?_, hSame⟩
    exact find_extends
      (hGains.extends.trans hPut.extends) hFind
      (by rw [hSame]; exact hNode)
  · intro place hFind
    by_cases hPlace : place = spot.place
    · subst hPlace
      rcases exists_spot_of_find .busy hFind hPut.here with
        ⟨goal, hGoal, hEq, hSlashes⟩
      have hSelf :=
        FileM.run_move_self
          (spot_extends hPut.extends hSpot .busy) hGoal
          ⟨(hTemp.spot hSpot).2.1, hSlashes⟩ hEq.symm
          hPut.here
      rw [hSelf] at hMove
      cases hMove
    · rw [hPut.there place hPlace]
      rcases hGains.node place with hOld | hMade
      · exact Or.inl hOld
      · exact Or.inr (hMade.extends hPut.extends)

/- After a failed move, the error holds the file. -/
theorem isUnwritten_of_move
    {made : FileTree}
    {temp : String}
    {spot : Spot}
    {fault : SystemFault}
    (hGains : Gains (Path.higher target) before made)
    (hTemp : IsCandidate made target temp)
    (hSpot : made.spot .isDirectory temp = .ok spot)
    (hFree : made.node? spot.place = none)
    (hMove : (FileM.move temp target).run
      (made.insert spot.place
        (.file content FileM.freshAge)) =
          (.error fault, after)) :
    IsUnwritten target content before
      (made.insert spot.place
        (.file content FileM.freshAge))
      (.system (.moveFile target temp) fault) := by
  have hPut :=
    isPut_insert (.file content FileM.freshAge) hFree
  have hKept :=
    keepsEntry_of_move hGains hTemp hSpot hFree hMove
  have hDropped :=
    gains_of_removeFile hGains hTemp hSpot hFree content
  generalize made.insert spot.place
    (.file content FileM.freshAge) = created
      at hPut hKept hDropped ⊢
  have hSlashes := (hTemp.spot hSpot).2.1
  have hSpot :=
    spot_extends hPut.extends hSpot .isDirectory
  have hDrop :
      ((Error.system (.moveFile target temp) fault).drop.run
          created).2 =
        ((FileM.removeFile temp).run created).2 :=
    Error.run_drop_of_some rfl created
  have hRemoved :=
    FileM.node?_removeFile hSpot hSlashes
      (isAnchor_of_node?_ne (by simp [hPut.here]))
  rw [← hDrop] at hDropped hRemoved
  refine ⟨hKept, hDropped, ?_⟩
  intro place
  rw [hRemoved place]
  by_cases hPlace : place = spot.place
  · subst hPlace
    have hBefore : before.node? spot.place = none := by
      by_contra hNode
      rw [hGains.node_of_ne_none hNode] at hFree
      exact hNode hFree
    right
    refine ⟨temp, rfl, hTemp.of_home_eq hPut.home_eq, ?_,
      hBefore, hPut.here, ?_⟩
    · exact find_of_spot hSpot (by simp [hPut.here])
        (Or.inl hSlashes)
    · simp [hPut.here]
  · left
    rw [if_neg (fun hHere => hPlace hHere.1)]

/- A write that fails leaves the file unwritten. -/
theorem isUnwritten_of_run_write
    [TempNaming]
    {e : Error}
    (hRun :
      (write target content).run before =
        (.error e, after)) :
    IsUnwritten target content before after e := by
  simp only [write, FileM.run_bind] at hRun
  rcases run_create target content before with
    ⟨error, made, hCreate, hHeld, hGains⟩ |
    ⟨temp, spot, made, hGains, hTemp, hSpot, hFree,
      hCreate⟩
  · rw [hCreate] at hRun
    cases hRun
    have hDrop := Error.run_drop_of_none hHeld after
    exact
      { kept := hGains.keepsEntry
        dropped := by rwa [hDrop]
        held := fun place => Or.inl (by rw [hDrop]) }
  · rw [hCreate] at hRun
    simp only [FileM.run_during] at hRun
    rcases FileM.run_move temp target (made.insert spot.place
      (.file content FileM.freshAge)) with
      ⟨fault, hMove⟩ | ⟨_, _, _, -, -, -, -, hMove⟩
    · have hUnwritten :=
        isUnwritten_of_move hGains hTemp hSpot hFree hMove
      rw [hMove] at hRun
      cases hRun
      exact hUnwritten
    · rw [hMove] at hRun
      cases hRun

theorem IsWritten.node_eq
    (hWritten : IsWritten target content before after place)
    (hOther : other ≠ place)
    (hNode : before.node? other ≠ none) :
    after.node? other = before.node? other := by
  rcases hWritten.rest other hOther with hSame | hMade
  · exact hSame
  · exact absurd hMade.free hNode

theorem IsWritten.node_ne_none
    (hWritten : IsWritten target content before after place)
    (hNode : before.node? other ≠ none) :
    after.node? other ≠ none := by
  by_cases hOther : other = place
  · simp [hOther, hWritten.holds]
  · rw [hWritten.node_eq hOther hNode]
    exact hNode

theorem IsWritten.extends
    (hWritten : IsWritten target content before after place) :
    before.Extends after := by
  refine ⟨hWritten.home_eq, ?_⟩
  intro other hDirectory
  have hOther : other ≠ place := by
    rintro rfl
    exact hWritten.free hDirectory
  rw [hWritten.node_eq hOther (by simp [hDirectory]),
    hDirectory]

------------------------------------------------------------
-- Several Files
------------------------------------------------------------

/-
  Files have been written one after the other, each with its
  path and its contents.
-/
inductive AreWritten :
    List (String × Bytes) → FileTree → FileTree → Prop
| nil {tree : FileTree} :
    AreWritten [] tree tree
| cons {target : String} {content : Bytes}
    {files : List (String × Bytes)}
    {before middle after : FileTree} {place : Place}
    (hFirst :
      IsWritten target content before middle place)
    (hRest : AreWritten files middle after) :
    AreWritten ((target, content) :: files) before after

theorem AreWritten.node_ne_none
    (hWritten : AreWritten files before after)
    (hNode : before.node? place ≠ none) :
    after.node? place ≠ none := by
  induction hWritten with
  | nil =>
      exact hNode
  | cons hFirst _ ih =>
      exact ih (hFirst.node_ne_none hNode)

/- Files can be written in two goes. -/
theorem AreWritten.append
    {others : List (String × Bytes)}
    (hFirst : AreWritten files before middle)
    (hOthers : AreWritten others middle after) :
    AreWritten (files ++ others) before after := by
  induction hFirst with
  | nil =>
      exact hOthers
  | cons hHere _ ih =>
      exact .cons hHere (ih hOthers)

theorem AreWritten.extends
    (hWritten : AreWritten files before after) :
    before.Extends after := by
  induction hWritten with
  | nil =>
      exact Extends.refl _
  | cons hFirst _ ih =>
      exact hFirst.extends.trans ih

theorem AreWritten.find_eq
    (hWritten : AreWritten files before after)
    (hFind : before.find path = .ok place) :
    after.find path = .ok place :=
  find_extends hWritten.extends hFind
    (hWritten.node_ne_none (find_isGrounded hFind).1)

/-
  Each file that was written is found at a place with the
  file name of its path.
-/
theorem AreWritten.exists_found
    (hWritten : AreWritten files before after)
    {file : String × Bytes}
    (hFile : file ∈ files) :
    ∃ place home name,
      after.find file.1 = .ok place ∧
        place = home ++ [name] ∧
        Path.fileName? file.1 = some name := by
  induction hWritten with
  | nil =>
      cases hFile
  | cons hFirst hRest ih =>
      rcases List.mem_cons.mp hFile with rfl | hFile
      · rcases hFirst.named with ⟨home, name, hPlace, hName⟩
        exact ⟨_, home, name, hRest.find_eq hFirst.found,
          hPlace, hName⟩
      · exact ih hFile

/-
  Where none of the paths leads to, all is as it was but for
  new directories.
-/
theorem AreWritten.rest
    (hWritten : AreWritten files before after)
    (hOther : ∀ file ∈ files,
      after.find file.1 ≠ .ok place) :
    after.node? place = before.node? place ∨
      (before.node? place = none ∧
        after.node? place = some .directory) := by
  induction hWritten with
  | nil =>
      exact Or.inl rfl
  | @cons _ _ _ _ _ _ spot hFirst hRest ih =>
      rcases List.forall_mem_cons.mp hOther with
        ⟨hHere, hLater⟩
      have hElsewhere : place ≠ spot := by
        rintro rfl
        exact hHere (hRest.find_eq hFirst.found)
      rcases hFirst.rest place hElsewhere with hSame | hMade
      · rw [← hSame]
        exact ih hLater
      · exact Or.inr ⟨hMade.free,
          hRest.extends.node _ hMade.made⟩

theorem AreWritten.node_eq
    (hWritten : AreWritten files before after)
    (hNode : before.node? place ≠ none)
    (hOther : ∀ file ∈ files,
      after.find file.1 ≠ .ok place) :
    after.node? place = before.node? place := by
  rcases hWritten.rest hOther with hSame | ⟨hFree, -⟩
  · exact hSame
  · exact absurd hFree hNode

/-
  If their paths have different file names, all files hold
  what was written, since each is at a place of its own.
-/
theorem AreWritten.read_eq
    (hWritten : AreWritten files before after)
    (hNames : (files.map fun file =>
      Path.fileName? file.1).Nodup)
    {file : String × Bytes}
    (hFile : file ∈ files) :
    after.read file.1 = .ok file.2 := by
  induction hWritten with
  | nil =>
      cases hFile
  | @cons target content files _ middle after place
      hFirst hRest ih =>
      rw [List.map_cons, List.nodup_cons] at hNames
      rcases List.mem_cons.mp hFile with rfl | hFile
      · have hOther :
            ∀ later ∈ files,
              after.find later.1 ≠ .ok place := by
          intro later hLater hFind
          rcases hRest.exists_found hLater with
            ⟨place', home', name', hFind', rfl, hName'⟩
          rcases hFirst.named with
            ⟨home, name, rfl, hName⟩
          have hEq := Except.ok.inj (hFind.symm.trans hFind')
          have hLast : name = name' :=
            List.singleton_inj.mp
              (List.append_inj_right' hEq rfl)
          apply hNames.1
          rw [hName, hLast, ← hName']
          exact List.mem_map_of_mem hLater
        have hHolds :=
          hRest.node_eq (by simp [hFirst.holds]) hOther
        rw [hFirst.holds] at hHolds
        unfold FileTree.read
        rw [hRest.find_eq hFirst.found]
        simp [bind, Except.bind, hHolds]
        rfl
      · exact ih hNames.2 hFile

end Temp

end Slideshow

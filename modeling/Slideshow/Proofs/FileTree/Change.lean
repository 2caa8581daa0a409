import Slideshow.FileTree.Change
import Slideshow.Proofs.FileTree.Lookup

/-
  This file proves what the operations on files do to a tree
  and what they leave alone.

  An operation on one entry either fails and changes nothing
  or changes one place.  Making directories may fail on the
  way; whatever it has done, it has only added directories
  that lie on the way (`FileTree.Gains`).

  Key definitions include:
    * `FileTree.IsMade`
    * `FileTree.Gains`
    * `FileTree.IsPut`
    * `FileTree.IsMoved`
    * `Path.higher`
    * `FileTree.KeepsEntry`

  Main results include:
    * `FileM.makeParent_gains`
    * `FileM.run_createFile`
    * `FileTree.isMoved_file`
    * `FileTree.isMoved_directory`
    * `FileM.run_move`
    * `FileM.run_writeFile`
    * `FileM.node?_removeFile`
-/

namespace Slideshow

------------------------------------------------------------
-- Trees That Gain Directories
------------------------------------------------------------

namespace FileTree

variable {tree tree' tree'' : FileTree}
variable {place : Place}
variable {paths paths' : List String}

/-
  A place where there was nothing has become a directory,
  and one of the given paths leads to it.
-/
structure IsMade
    (paths : List String)
    (tree tree' : FileTree)
    (place : Place) : Prop where
  free : tree.node? place = none
  made : tree'.node? place = some .directory
  found : ∃ path ∈ paths, tree'.find path = .ok place

/- A tree has become another by new directories alone. -/
structure Gains
    (paths : List String)
    (tree tree' : FileTree) : Prop where
  home_eq : tree'.home = tree.home
  distinct : (tree.entries.map Prod.fst).Nodup →
    (tree'.entries.map Prod.fst).Nodup
  node : ∀ place,
    tree'.node? place = tree.node? place ∨
      IsMade paths tree tree' place

theorem Gains.refl
    (paths : List String)
    (tree : FileTree) :
    Gains paths tree tree :=
  ⟨rfl, fun hDistinct => hDistinct, fun _ => Or.inl rfl⟩

/- More paths allow for more directories. -/
theorem Gains.mono
    (hGains : Gains paths tree tree')
    (hPaths : paths ⊆ paths') :
    Gains paths' tree tree' := by
  refine ⟨hGains.home_eq, hGains.distinct, ?_⟩
  intro place
  rcases hGains.node place with
    hSame | ⟨hFree, hMade, path, hPath, hFind⟩
  · exact Or.inl hSame
  · exact Or.inr
      ⟨hFree, hMade, path, hPaths hPath, hFind⟩

theorem Gains.node_of_ne_none
    (hGains : Gains paths tree tree')
    (hNode : tree.node? place ≠ none) :
    tree'.node? place = tree.node? place := by
  rcases hGains.node place with hSame | hMade
  · exact hSame
  · exact absurd hMade.free hNode

theorem Gains.extends
    (hGains : Gains paths tree tree') :
    tree.Extends tree' := by
  refine ⟨hGains.home_eq, ?_⟩
  intro place hNode
  rw [hGains.node_of_ne_none (by simp [hNode]), hNode]

theorem IsMade.extends
    (hMade : IsMade paths tree tree' place)
    (hExtends : tree'.Extends tree'') :
    IsMade paths tree tree'' place := by
  rcases hMade with ⟨hFree, hMade, path, hPath, hFind⟩
  have hStays := hExtends.node _ hMade
  exact ⟨hFree, hStays, path, hPath,
    find_extends hExtends hFind (by simp [hStays])⟩

/- Directories may be gained one after the other. -/
theorem Gains.trans
    (hFirst : Gains paths tree tree')
    (hSecond : Gains paths tree' tree'') :
    Gains paths tree tree'' := by
  refine ⟨hSecond.home_eq.trans hFirst.home_eq,
    fun hDistinct =>
      hSecond.distinct (hFirst.distinct hDistinct), ?_⟩
  intro place
  rcases hFirst.node place with hSame | hMade
  · rcases hSecond.node place with hSame' | hMade
    · exact Or.inl (hSame'.trans hSame)
    · exact Or.inr
        ⟨hSame.symm.trans hMade.free, hMade.made,
          hMade.found⟩
  · exact Or.inr (hMade.extends hSecond.extends)

/-
  There is a new entry at a place where there was nothing,
  and all else is as it was.
-/
structure IsPut
    (node : FileNode)
    (tree tree' : FileTree)
    (place : Place) : Prop where
  home_eq : tree'.home = tree.home
  free : tree.node? place = none
  here : tree'.node? place = some node
  there : ∀ other, other ≠ place →
    tree'.node? other = tree.node? other

/- An entry can be put where there is nothing. -/
theorem isPut_insert
    (node : FileNode)
    (hFree : tree.node? place = none) :
    IsPut node tree (tree.insert place node) place := by
  have hNode : tree.node? place ≠ some .directory := by
    simp [hFree]
  have hInsert :=
    node?_insert tree node (isAnchor_of_node?_ne hNode)
  refine ⟨rfl, hFree, ?_, ?_⟩
  · rw [hInsert, if_pos rfl]
  · intro other hOther
    rw [hInsert, if_neg hOther]

theorem IsPut.extends
    {node : FileNode}
    (hPut : IsPut node tree tree' place) :
    tree.Extends tree' :=
  Extends.of_ne hPut.home_eq (by simp [hPut.free])
    hPut.there

theorem IsPut.isAnchor_eq
    {node : FileNode}
    (hPut : IsPut node tree tree' place) :
    tree.isAnchor place = false :=
  isAnchor_of_node?_ne (by simp [hPut.free])

/- A directory that is put at a spot is gained. -/
theorem gains_insert
    {dotted : SystemFault}
    {path : String}
    {spot : Spot}
    (hSpot : tree.spot dotted path = .ok spot)
    (hFree : tree.node? spot.place = none) :
    Gains [path] tree
      (tree.insert spot.place .directory) := by
  have hPut := isPut_insert .directory hFree
  refine ⟨rfl, fun hDistinct =>
    nodup_insert hDistinct _ _, ?_⟩
  intro place
  by_cases hPlace : place = spot.place
  · subst hPlace
    have hFind :=
      find_of_spot (spot_extends hPut.extends hSpot dotted)
        (by simp [hPut.here]) (Or.inr hPut.here)
    exact Or.inr ⟨hFree, hPut.here, path,
      List.mem_singleton.mpr rfl, hFind⟩
  · exact Or.inl (hPut.there place hPlace)

------------------------------------------------------------
-- Entries That Are Moved
------------------------------------------------------------

/-
  An entry has gone from one place to another, and all else
  is as it was.
-/
structure IsMoved
    (node : FileNode)
    (tree tree' : FileTree)
    (old new : Place) : Prop where
  home_eq : tree'.home = tree.home
  node_eq : ∀ other,
    tree'.node? other =
      if other = new then some node
      else if other = old then none
      else tree.node? other

variable {old new : Spot}
variable {content : Bytes}
variable {age : Nat}

/- A file may be moved where there is no directory. -/
theorem ne_directory_of_fileMoveFault?
    (hFault : tree.fileMoveFault? old new = none) :
    old.slashes = false ∧ new.slashes = false ∧
      tree.node? new.place ≠ some .directory := by
  unfold fileMoveFault? at hFault
  split_ifs at hFault with hSlashes hOver hTarget
  refine ⟨?_, ?_, ?_⟩
  · simp_all
  · simp_all
  · simpa [isDirectoryAt] using hTarget

/-
  A directory may be moved to where it is, and to where
  there is nothing or an empty directory.
-/
theorem cases_of_directoryMoveFault?
    (hFault : tree.directoryMoveFault? old new = none) :
    old.place = new.place ∨
      (¬ old.place <+: new.place ∧
        ¬ new.place <+: old.place ∧
        tree.isAnchor old.place = false ∧
        (tree.node? new.place = none ∨
          tree.isBareAt new.place = true)) := by
  by_cases hSame : old.place = new.place
  · exact Or.inl hSame
  · right
    simp only [directoryMoveFault?, hSame, if_false,
      List.isPrefixOf_iff_prefix] at hFault
    have hInto : ¬ old.place <+: new.directory := by
      intro hInto
      simp [hInto] at hFault
    rw [if_neg hInto] at hFault
    have hOver : ¬ new.place <+: old.directory := by
      intro hOver
      simp [hOver] at hFault
    rw [if_neg hOver] at hFault
    have hAnchor : ¬ tree.isAnchor old.place = true := by
      intro hAnchor
      simp [hAnchor] at hFault
    rw [if_neg hAnchor] at hFault
    refine ⟨?_, ?_, by simpa using hAnchor, ?_⟩
    · intro hPrefix
      rcases List.prefix_concat_iff.mp hPrefix with
        hEq | hPrefix
      · exact hSame hEq
      · exact hInto hPrefix
    · intro hPrefix
      rcases List.prefix_concat_iff.mp hPrefix with
        hEq | hPrefix
      · exact hSame hEq.symm
      · exact hOver hPrefix
    · rcases hNode : tree.node? new.place with
        _ | _ | ⟨content, age⟩
      · exact Or.inl rfl
      · right
        simpa [hNode] using hFault
      · simp [hNode] at hFault

/- What is moved to where it is stays there. -/
theorem isMoved_self
    {node : FileNode}
    (hSame : old.place = new.place)
    (hNode : tree.node? old.place = some node) :
    IsMoved node tree (tree.moved old.place new.place node)
      old.place new.place := by
  unfold moved
  rw [if_pos hSame]
  refine ⟨rfl, ?_⟩
  intro other
  by_cases hOther : other = new.place
  · rw [if_pos hOther, hOther, ← hSame, hNode]
  · rw [if_neg hOther, hSame, if_neg hOther]

/-
  Directories stay when something is moved that is none, or
  that takes no other one's place.  The tree may differ from
  the first one at what is moved.
-/
theorem IsMoved.extends
    {node : FileNode}
    {first : FileTree}
    {source target : Place}
    (hMoved : IsMoved node tree tree' source target)
    (hHome : tree.home = first.home)
    (hThere : ∀ other, other ≠ source →
      tree.node? other = first.node? other)
    (hSource : first.node? source ≠ some .directory)
    (hTarget : node = .directory ∨
      tree.node? target ≠ some .directory) :
    first.Extends tree' := by
  refine ⟨hMoved.home_eq.trans hHome, ?_⟩
  intro other hDirectory
  have hNe : other ≠ source := by
    rintro rfl
    exact hSource hDirectory
  rw [← hThere other hNe] at hDirectory
  rw [hMoved.node_eq]
  by_cases hOther : other = target
  · rw [if_pos hOther]
    rcases hTarget with rfl | hFile
    · rfl
    · rw [hOther] at hDirectory
      exact absurd hDirectory hFile
  · rw [if_neg hOther, if_neg hNe, hDirectory]

/- A file is moved on its own. -/
theorem isMoved_file
    (hNode : tree.node? old.place = some (.file content age))
    (hFault :
      tree.moveFault? old new (.file content age) = none) :
    IsMoved (.file content age) tree
      (tree.moved old.place new.place (.file content age))
      old.place new.place := by
  have hTarget := (ne_directory_of_fileMoveFault? hFault).2.2
  by_cases hSame : old.place = new.place
  · exact isMoved_self hSame hNode
  · rw [moved, if_neg hSame]
    have hOldAnchor : tree.isAnchor old.place = false :=
      isAnchor_of_node?_ne (by simp [hNode])
    have hNewAnchor : tree.isAnchor new.place = false :=
      isAnchor_of_node?_ne hTarget
    have hErasedAnchor :
        (tree.erase old.place).isAnchor new.place = false :=
      hNewAnchor
    refine ⟨rfl, ?_⟩
    intro other
    calc ((tree.erase old.place).insert new.place
          (.file content age)).node? other
        = if other = new.place then
            some (.file content age)
          else (tree.erase old.place).node? other :=
          node?_insert _ _ hErasedAnchor other
      _ = if other = new.place then
            some (.file content age)
          else if other = old.place then none
          else tree.node? other := by
          rw [node?_erase _ hOldAnchor]

/-
  A directory is moved on its own if nothing lies below it,
  and nothing below where it goes.
-/
theorem isMoved_directory
    (hNode : tree.node? old.place = some .directory)
    (hFault : tree.moveFault? old new .directory = none)
    (hOld : ∀ rest, rest ≠ [] →
      tree.node? (old.place ++ rest) = none)
    (hNew : ∀ rest, rest ≠ [] →
      tree.node? (new.place ++ rest) = none) :
    IsMoved .directory tree
      (tree.moved old.place new.place .directory)
      old.place new.place := by
  rcases cases_of_directoryMoveFault? hFault with
    hSame | ⟨hInto, hOver, hOldAnchor, hTarget⟩
  · exact isMoved_self hSame hNode
  · unfold moved
    have hNe : old.place ≠ new.place := by
      intro hEq
      exact hInto (hEq ▸ List.prefix_rfl)
    have hNewAnchor : tree.isAnchor new.place = false := by
      rcases hTarget with hFree | hBare
      · exact isAnchor_of_node?_ne (by simp [hFree])
      · rw [isBareAt, Bool.and_eq_true] at hBare
        simpa using hBare.1
    rw [if_neg hNe]
    refine ⟨rfl, ?_⟩
    intro other
    apply (node?_graft hInto hOver hOldAnchor hNewAnchor
      other).trans
    unfold graftSource?
    by_cases hBelowNew : new.place <+: other
    · rcases hBelowNew with ⟨rest, rfl⟩
      rw [if_pos (List.prefix_append _ _), List.drop_left,
        Option.bind_some]
      by_cases hRest : rest = []
      · simp [hRest, hNode]
      · have hNotNew : new.place ++ rest ≠ new.place := by
          simpa using hRest
        have hNotOld : new.place ++ rest ≠ old.place := by
          intro hEq
          exact hOver (hEq ▸ List.prefix_append _ _)
        rw [hOld rest hRest, if_neg hNotNew,
          if_neg hNotOld, hNew rest hRest]
    · have hNotNew : other ≠ new.place := by
        rintro rfl
        exact hBelowNew List.prefix_rfl
      rw [if_neg hBelowNew, if_neg hNotNew]
      by_cases hBelowOld : old.place <+: other
      · rcases hBelowOld with ⟨rest, rfl⟩
        rw [if_pos (List.prefix_append _ _),
          Option.bind_none]
        by_cases hRest : rest = []
        · simp [hRest]
        · have hNotOld : old.place ++ rest ≠ old.place := by
            simpa using hRest
          rw [if_neg hNotOld, hOld rest hRest]
      · have hNotOld : other ≠ old.place := by
          rintro rfl
          exact hBelowOld List.prefix_rfl
        rw [if_neg hBelowOld, if_neg hNotOld,
          Option.bind_some]

end FileTree

------------------------------------------------------------
-- Paths on the Way
------------------------------------------------------------

namespace Path

/- The paths of the directories on the way to a path. -/
def higher (path : String) : List String :=
  match parent? path with
  | some parent => ancestors parent
  | none => []

end Path

namespace FileTree

variable {path : String}
variable {before after : FileTree}

/-
  The entry at a path is what it was, unless nothing was
  there and it is now one of the directories on the way to
  the path itself.
-/
structure KeepsEntry
    (path : String)
    (before after : FileTree) : Prop where
  found : ∀ place, before.find path = .ok place →
    after.find path = .ok place ∧
      after.node? place = before.node? place
  same : ∀ place, after.find path = .ok place →
    after.node? place = before.node? place ∨
      IsMade (Path.higher path) before after place

/- If only directories were made, the entry is kept. -/
theorem Gains.keepsEntry
    (hGains : Gains (Path.higher path) before after) :
    KeepsEntry path before after := by
  constructor
  · intro place hFind
    have hNode := (find_isGrounded hFind).1
    have hSame := hGains.node_of_ne_none hNode
    refine ⟨?_, hSame⟩
    exact find_extends hGains.extends hFind
      (by rw [hSame]; exact hNode)
  · intro place hFind
    exact hGains.node place

end FileTree

------------------------------------------------------------
-- Running Computations
------------------------------------------------------------

namespace FileM

open FileTree

variable {ε α β : Type}

/- A second step is taken only if the first one succeeds. -/
theorem run_bind
    (first : FileM ε α)
    (next : α → FileM ε β)
    (tree : FileTree) :
    (first >>= next).run tree =
      match first.run tree with
      | (.ok a, tree') => (next a).run tree'
      | (.error e, tree') => (.error e, tree') := by
  have hRun :
      (first >>= next).run tree =
        ExceptT.bindCont next (first.run tree).1
          (first.run tree).2 :=
    rfl
  rw [hRun]
  rcases first.run tree with ⟨_ | _, _⟩
  · rfl
  · rfl

/- Two steps succeed exactly if one after the other does. -/
theorem run_bind_eq_ok_iff
    {first : FileM ε α}
    {next : α → FileM ε β}
    {tree tree' : FileTree}
    {b : β} :
    (first >>= next).run tree = (.ok b, tree') ↔
      ∃ a middle, first.run tree = (.ok a, middle) ∧
        (next a).run middle = (.ok b, tree') := by
  rw [run_bind]
  constructor
  · intro hRun
    rcases hFirst : first.run tree with ⟨e | a, middle⟩
    · simp only [hFirst] at hRun
      cases hRun
    · simp only [hFirst] at hRun
      exact ⟨a, middle, rfl, hRun⟩
  · rintro ⟨a, middle, hFirst, hNext⟩
    simp only [hFirst, hNext]

/- A handler takes over the files as they were left. -/
theorem run_tryCatch
    (first : FileM ε α)
    (handler : ε → FileM ε α)
    (tree : FileTree) :
    (tryCatch first handler).run tree =
      match first.run tree with
      | (.ok a, tree') => (.ok a, tree')
      | (.error e, tree') => (handler e).run tree' := by
  have hRun :
      (tryCatch first handler).run tree =
        (match (first.run tree).1 with
          | .ok a => pure (.ok a)
          | .error e => (handler e).run :
            StateM FileTree (Except ε α))
          (first.run tree).2 :=
    rfl
  rw [hRun]
  rcases first.run tree with ⟨_ | _, _⟩
  · rfl
  · rfl

theorem run_get (tree : FileTree) :
    (get : FileM ε FileTree).run tree = (.ok tree, tree) :=
  rfl

theorem run_set (tree tree' : FileTree) :
    (set tree' : FileM ε PUnit).run tree =
      (.ok ⟨⟩, tree') :=
  rfl

theorem run_throw
    (e : ε)
    (tree : FileTree) :
    (throw e : FileM ε α).run tree = (.error e, tree) :=
  rfl

theorem run_pure
    (a : α)
    (tree : FileTree) :
    (pure a : FileM ε α).run tree = (.ok a, tree) :=
  rfl

theorem run_ofExcept
    (result : Except ε α)
    (tree : FileTree) :
    (ofExcept result).run tree = (result, tree) :=
  rfl

theorem run_query
    (read : FileTree → Except ε α)
    (tree : FileTree) :
    (query read).run tree = (read tree, tree) :=
  rfl

theorem run_during
    (action : Action)
    (run : FileM SystemFault α)
    (tree : FileTree) :
    (during action run).run tree =
      ((run.run tree).1.mapError (Error.system action),
        (run.run tree).2) :=
  rfl

------------------------------------------------------------
-- Making Directories
------------------------------------------------------------

variable {tree : FileTree}

/- Making a directory fails or gains it. -/
theorem makeDirectory_gains
    (path : String)
    (tree : FileTree) :
    Gains [path] tree
      ((makeDirectory path).run tree).2 := by
  simp only [makeDirectory, run_bind, run_query, run_get]
  cases hSpot : tree.spot .alreadyExists path with
  | error fault =>
      exact Gains.refl _ _
  | ok spot =>
      cases hNode : tree.node? spot.place with
      | none =>
          simp only [hNode, run_set]
          exact gains_insert hSpot hNode
      | some node =>
          simp only [hNode, run_throw]
          exact Gains.refl _ _

/- Being content with a directory changes nothing. -/
theorem makeMissing_gains
    (path : String)
    (tree : FileTree) :
    Gains [path] tree
      ((makeMissing path).run tree).2 := by
  have hMade := makeDirectory_gains path tree
  simp only [makeMissing, run_bind, run_get, run_tryCatch]
  rcases hRun : (makeDirectory path).run tree with
    ⟨fault | _, tree'⟩
  · rw [hRun] at hMade
    by_cases hThere :
      fault = .alreadyExists ∧ tree.isDirectory path
    · simp only [if_pos hThere]
      exact hMade
    · simp only [if_neg hThere]
      exact hMade
  · rw [hRun] at hMade
    exact hMade

/-
  Whether it succeeds or not, making directories gains some
  of them.  The induction follows the paths; those behind
  the first are made before it.
-/
theorem makeChain_gains
    (paths : List String)
    (tree : FileTree) :
    Gains paths tree ((makeChain paths).run tree).2 := by
  induction paths generalizing tree with
  | nil =>
      exact Gains.refl _ _
  | cons path parents ih =>
      have hSelf : [path] ⊆ path :: parents := by
        simp
      have hFirst :=
        (makeMissing_gains path tree).mono hSelf
      simp only [makeChain, run_tryCatch]
      rcases hRun : (makeMissing path).run tree with
        ⟨fault | _, tree'⟩
      · rw [hRun] at hFirst
        by_cases hMissing : fault = .notFound
        · simp only [if_pos hMissing, run_bind]
          have hParents :=
            (ih tree').mono (List.subset_cons_self path _)
          rcases hRest : (makeChain parents).run tree' with
            ⟨_ | _, tree''⟩
          · rw [hRest] at hParents
            exact hFirst.trans hParents
          · rw [hRest] at hParents
            have hLast :=
              (makeMissing_gains path tree'').mono hSelf
            exact (hFirst.trans hParents).trans hLast
        · simp only [if_neg hMissing, run_throw]
          exact hFirst
      · rw [hRun] at hFirst
        exact hFirst

/-
  Whether it succeeds or not, making the directory of a path
  gains directories on the way to it.
-/
theorem makeParent_gains
    (path : String)
    (tree : FileTree) :
    Gains (Path.higher path) tree
      ((makeParent path).run tree).2 := by
  unfold makeParent Path.higher
  cases Path.parent? path with
  | none =>
      exact Gains.refl _ _
  | some parent =>
      by_cases hEmpty : parent.isEmpty = true
      · simp only [if_pos hEmpty, run_pure]
        exact Gains.refl _ _
      · simp only [if_neg hEmpty, run_during]
        exact makeChain_gains _ _

------------------------------------------------------------
-- Files
------------------------------------------------------------

/- A new file is made where there was nothing. -/
theorem run_createFile
    (path : String)
    (content : Bytes)
    (tree : FileTree) :
    (∃ fault,
      (createFile path content).run tree =
        (.error fault, tree)) ∨
      ∃ spot, tree.spot .isDirectory path = .ok spot ∧
        tree.node? spot.place = none ∧
        (createFile path content).run tree =
          (.ok (), tree.insert spot.place
            (.file content freshAge)) := by
  simp only [createFile, run_bind, run_query, run_get]
  cases hSpot : tree.spot .isDirectory path with
  | error fault =>
      exact Or.inl ⟨fault, rfl⟩
  | ok spot =>
      cases hNode : tree.node? spot.place with
      | none =>
          exact Or.inr ⟨spot, rfl, hNode,
            by simp only [hNode, run_set]⟩
      | some node =>
          exact Or.inl ⟨.alreadyExists,
            by simp only [hNode, run_throw]⟩

/- A file is written where there is no directory. -/
theorem run_writeFile
    (path : String)
    (content : Bytes)
    (tree : FileTree) :
    (∃ fault,
      (writeFile path content).run tree =
        (.error fault, tree)) ∨
      ∃ spot, tree.spot .isDirectory path = .ok spot ∧
        tree.node? spot.place ≠ some .directory ∧
        (writeFile path content).run tree =
          (.ok (), tree.insert spot.place
            (.file content freshAge)) := by
  simp only [writeFile, run_bind, run_query, run_get]
  cases hSpot : tree.spot .isDirectory path with
  | error fault =>
      exact Or.inl ⟨fault, rfl⟩
  | ok spot =>
      by_cases hSlashes : spot.slashes = true
      · refine Or.inl ⟨.isDirectory, ?_⟩
        simp only [if_pos hSlashes, run_bind, run_throw]
      · simp only [if_neg hSlashes]
        cases hNode : tree.node? spot.place with
        | none =>
            exact Or.inr ⟨spot, rfl, by simp [hNode], rfl⟩
        | some node =>
            cases node with
            | directory =>
                exact Or.inl ⟨.isDirectory, rfl⟩
            | file old age =>
                exact Or.inr ⟨spot, rfl, by simp [hNode],
                  rfl⟩

/- An entry is moved unless something is against it. -/
theorem run_move
    (source target : String)
    (tree : FileTree) :
    (∃ fault,
      (move source target).run tree =
        (.error fault, tree)) ∨
      ∃ old new node,
        tree.spot .busy source = .ok old ∧
        tree.spot .busy target = .ok new ∧
        tree.node? old.place = some node ∧
        tree.moveFault? old new node = none ∧
        (move source target).run tree =
          (.ok (), tree.moved old.place new.place node) := by
  simp only [move, run_bind, run_query]
  cases hOld : tree.spot .busy source with
  | error fault =>
      exact Or.inl ⟨fault, rfl⟩
  | ok old =>
      simp only
      cases hNew : tree.spot .busy target with
      | error fault =>
          exact Or.inl ⟨fault, rfl⟩
      | ok new =>
          simp only [run_get]
          cases hNode : tree.node? old.place with
          | none =>
              exact Or.inl ⟨.notFound, rfl⟩
          | some node =>
              cases hFault : tree.moveFault? old new node with
              | some fault =>
                  exact Or.inl ⟨fault, by
                    simp only [hFault, run_throw]⟩
              | none =>
                  exact Or.inr ⟨old, new, node, rfl, rfl,
                    hNode, hFault, by
                      simp only [hFault, run_set]⟩

/- A move that succeeds had nothing against it. -/
theorem exists_of_run_move
    {source target : String}
    {tree after : FileTree}
    {old : Spot}
    (hOld : tree.spot .busy source = .ok old)
    (hRun :
      (move source target).run tree = (.ok (), after)) :
    ∃ new node,
      tree.spot .busy target = .ok new ∧
        tree.node? old.place = some node ∧
        tree.moveFault? old new node = none ∧
        after = tree.moved old.place new.place node := by
  rcases run_move source target tree with
    ⟨fault, hFail⟩ |
    ⟨old', new, node, hOld', hNew, hNode, hFault, hDone⟩
  · rw [hRun] at hFail
    cases hFail
  · rw [hOld] at hOld'
    cases hOld'
    rw [hRun] at hDone
    exact ⟨new, node, hNew, hNode, hFault,
      (Prod.mk.inj hDone).2⟩

/- A file can be moved to where it is. -/
theorem run_move_self
    {source target : String}
    {tree : FileTree}
    {old new : Spot}
    {content : Bytes}
    {age : Nat}
    (hOld : tree.spot .busy source = .ok old)
    (hNew : tree.spot .busy target = .ok new)
    (hSlashes : old.slashes = false ∧ new.slashes = false)
    (hSame : old.place = new.place)
    (hNode :
      tree.node? old.place = some (.file content age)) :
    (move source target).run tree = (.ok (), tree) := by
  have hOver : new.place.isPrefixOf old.directory = false := by
    rw [← hSame, ← Bool.not_eq_true,
      List.isPrefixOf_iff_prefix]
    intro hPrefix
    have hLength := hPrefix.length_le
    rw [Spot.place, List.length_append] at hLength
    exact Nat.not_succ_le_self _ hLength
  have hFile : tree.isDirectoryAt new.place = false := by
    simp [isDirectoryAt, ← hSame, hNode]
  have hFault :
      tree.moveFault? old new (.file content age) = none := by
    simp [moveFault?, fileMoveFault?, hSlashes, hOver, hFile]
  have hMoved :
      tree.moved old.place new.place (.file content age) =
        tree :=
    if_pos hSame
  simp only [move, run_bind, run_query, hOld, hNew, run_get,
    hNode, hFault, run_set, hMoved]

/- Only a file that is found is removed. -/
theorem run_removeFile
    (path : String)
    (tree : FileTree) :
    ((removeFile path).run tree).2 =
      match tree.find path with
      | .ok place =>
          match tree.node? place with
          | some (.file _ _) => tree.erase place
          | _ => tree
      | .error _ => tree := by
  have hRun :
      (removeFile path).run tree =
        StateT.run (match tree.find path with
          | .ok place =>
              match tree.node? place with
              | some (.file _ _) => set (tree.erase place)
              | _ => return ()
          | .error _ => return () :
            StateM FileTree Unit) tree :=
    rfl
  rw [hRun]
  cases tree.find path with
  | error fault =>
      rfl
  | ok place =>
      rcases hNode : tree.node? place with
        _ | _ | ⟨content, age⟩
      · simp only [hNode]
        rfl
      · simp only [hNode]
        rfl
      · simp only [hNode]
        rfl

/- Removing a file keeps the working directory. -/
theorem home_removeFile
    (path : String)
    (tree : FileTree) :
    ((removeFile path).run tree).2.home = tree.home := by
  rw [run_removeFile]
  cases tree.find path with
  | error fault =>
      rfl
  | ok place =>
      rcases hNode : tree.node? place with
        _ | _ | ⟨content, age⟩
      · simp only [hNode]
      · simp only [hNode]
      · simp only [hNode]
        rfl

/- Removing a file keeps every place listed once. -/
theorem nodup_removeFile
    (path : String)
    (hDistinct : (tree.entries.map Prod.fst).Nodup) :
    (((removeFile path).run tree).2.entries.map
      Prod.fst).Nodup := by
  rw [run_removeFile]
  cases tree.find path with
  | error fault =>
      exact hDistinct
  | ok place =>
      rcases hNode : tree.node? place with
        _ | _ | ⟨content, age⟩
      · simpa only [hNode] using hDistinct
      · simpa only [hNode] using hDistinct
      · simpa only [hNode] using nodup_erase hDistinct place

/-
  Removing a file changes its place alone, where then is no
  file.
-/
theorem node?_removeFile
    {dotted : SystemFault}
    {path : String}
    {spot : Spot}
    (hSpot : tree.spot dotted path = .ok spot)
    (hSlashes : spot.slashes = false)
    (hAnchor : tree.isAnchor spot.place = false)
    (place : Place) :
    ((removeFile path).run tree).2.node? place =
      if place = spot.place ∧
          tree.node? place ≠ some .directory then none
      else tree.node? place := by
  rw [run_removeFile]
  rcases hNode : tree.node? spot.place with
    _ | _ | ⟨content, age⟩
  · have hSame :
        (if place = spot.place ∧
            tree.node? place ≠ some .directory then none
          else tree.node? place) = tree.node? place := by
      by_cases hPlace : place = spot.place
      · simp [hPlace, hNode]
      · simp [hPlace]
    rw [hSame]
    cases hFind : tree.find path with
    | error fault =>
        rfl
    | ok found =>
        have hFound := eq_place_of_spot hSpot hFind
        simp only [hFound, hNode]
  · rw [find_of_spot hSpot (by simp [hNode])
      (Or.inl hSlashes)]
    by_cases hPlace : place = spot.place
    · simp [hPlace, hNode]
    · simp [hPlace, hNode]
  · rw [find_of_spot hSpot (by simp [hNode])
      (Or.inl hSlashes)]
    simp only [hNode]
    rw [node?_erase tree hAnchor]
    by_cases hPlace : place = spot.place
    · simp [hPlace, hNode]
    · simp [hPlace]

end FileM

end Slideshow

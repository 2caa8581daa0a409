import Mathlib.Data.List.Basic
import Mathlib.Data.List.Infix
import Mathlib.Data.List.Nodup
import Slideshow.FileTree.Basic

/-
  This file proves how changes at single places show in a
  tree, and when a tree keeps the directories of another.

  Key definitions include:
    * `FileTree.IsWellFormed`
    * `FileTree.graftSource?`
    * `FileTree.Extends`

  Main results include:
    * `FileTree.isWellFormed_iff`
    * `FileTree.node?_erase`
    * `FileTree.node?_insert`
    * `FileTree.node?_filter`
    * `FileTree.node?_graft`
    * `FileTree.Extends.of_ne`
-/

namespace Slideshow

namespace FileTree

variable {tree tree' tree'' : FileTree}
variable {place : Place}

------------------------------------------------------------
-- Well-Formed Trees
------------------------------------------------------------

/-
  A tree lists every place once, and what is found in it
  lies in directories.
-/
structure IsWellFormed (tree : FileTree) : Prop where
  distinct : (tree.entries.map Prod.fst).Nodup
  rooted : ∀ place name,
    tree.node? (place ++ [name]) ≠ none →
      tree.node? place = some .directory

------------------------------------------------------------
-- Changes at One Place
------------------------------------------------------------

theorem isAnchor_iff :
    tree.isAnchor place = true ↔ place <+: tree.home :=
  List.isPrefixOf_iff_prefix

theorem node?_of_isAnchor
    (hAnchor : tree.isAnchor place = true) :
    tree.node? place = some .directory := by
  rw [node?, if_pos hAnchor]

theorem isAnchor_of_node?_ne
    (hNode : tree.node? place ≠ some .directory) :
    tree.isAnchor place = false := by
  by_contra hAnchor
  apply hNode
  exact node?_of_isAnchor (by simpa using hAnchor)

/- An anchor lies below no place but anchors. -/
theorem isAnchor_of_below
    {higher : Place}
    (hHigher : higher <+: place)
    (hAnchor : tree.isAnchor place = true) :
    tree.isAnchor higher = true :=
  isAnchor_iff.mpr (hHigher.trans (isAnchor_iff.mp hAnchor))

/- It can be checked entry by entry that a tree is one. -/
theorem isWellFormed_iff :
    tree.IsWellFormed ↔
      (tree.entries.map Prod.fst).Nodup ∧
        ∀ entry ∈ tree.entries, entry.1 ≠ [] →
          tree.node? entry.1.dropLast =
            some .directory := by
  constructor
  · rintro ⟨hDistinct, hRooted⟩
    refine ⟨hDistinct, ?_⟩
    intro entry hEntry hNonempty
    have hPlace := List.dropLast_append_getLast hNonempty
    apply hRooted _ (entry.1.getLast hNonempty)
    rw [hPlace, node?]
    by_cases hAnchor : tree.isAnchor entry.1 = true
    · simp [hAnchor]
    · rw [if_neg hAnchor]
      intro hNone
      rw [List.lookup_eq_none_iff] at hNone
      simpa using hNone entry hEntry
  · rintro ⟨hDistinct, hEntries⟩
    refine ⟨hDistinct, ?_⟩
    intro place name hNode
    by_cases hAnchor :
      tree.isAnchor (place ++ [name]) = true
    · exact node?_of_isAnchor
        (isAnchor_of_below (List.prefix_append _ _) hAnchor)
    · rw [node?, if_neg hAnchor] at hNode
      rcases Option.ne_none_iff_exists'.mp hNode with
        ⟨node, hLookup⟩
      rcases List.lookup_eq_some_iff.mp hLookup with
        ⟨before, after, hParts, -⟩
      have hMem :
          (place ++ [name], node) ∈ tree.entries := by
        rw [hParts]
        simp
      simpa using hEntries _ hMem (by simp)

/-
  What is found below a place is found below a directory.
-/
theorem IsWellFormed.directory_of_append
    (hTree : tree.IsWellFormed)
    {rest : Place}
    (hRest : rest ≠ [])
    (hNode : tree.node? (place ++ rest) ≠ none) :
    tree.node? place = some .directory := by
  induction rest using List.reverseRecOn with
  | nil =>
      exact absurd rfl hRest
  | append_singleton higher name ih =>
      rw [← List.append_assoc] at hNode
      have hHigher := hTree.rooted _ _ hNode
      by_cases hEmpty : higher = []
      · rwa [hEmpty, List.append_nil] at hHigher
      · exact ih hEmpty (by simp [hHigher])

/- It can be decided whether a tree is well-formed. -/
instance (tree : FileTree) :
    Decidable tree.IsWellFormed :=
  decidable_of_iff _ isWellFormed_iff.symm

/- A lookup goes past the entries of other places. -/
theorem lookup_cons_eq
    (entries : List (Place × FileNode))
    (entry : Place × FileNode)
    (place : Place) :
    (entry :: entries).lookup place =
      if place = entry.1 then some entry.2
      else entries.lookup place := by
  rw [List.lookup_cons]
  by_cases hPlace : place = entry.1
  · simp [hPlace]
  · simp [hPlace, beq_eq_false_iff_ne.mpr hPlace]

/- A lookup in a list of which one place was dropped. -/
theorem lookup_filter_ne
    (entries : List (Place × FileNode))
    (place other : Place) :
    (entries.filter fun entry =>
      entry.1 != place).lookup other =
      if other = place then none
      else entries.lookup other := by
  induction entries with
  | nil =>
      simp
  | cons entry entries ih =>
      rw [lookup_cons_eq]
      by_cases hKey : entry.1 = place
      · rw [List.filter_cons_of_neg (by simp [hKey]), ih]
        by_cases hOther : other = place
        · simp [hOther]
        · simp [hOther, hKey]
      · rw [List.filter_cons_of_pos (by simp [hKey]),
          lookup_cons_eq, ih]
        by_cases hOther : other = entry.1
        · simp [hOther, hKey]
        · simp [hOther]

/- Taking away changes one place. -/
theorem node?_erase
    (tree : FileTree)
    (hPlace : tree.isAnchor place = false)
    (other : Place) :
    (tree.erase place).node? other =
      if other = place then none else tree.node? other := by
  have hSame :
      (tree.erase place).isAnchor other =
        tree.isAnchor other :=
    rfl
  rw [node?, hSame, node?]
  by_cases hOther : other = place
  · simp [hOther, hPlace, erase, lookup_filter_ne]
  · simp [hOther, erase, lookup_filter_ne]

/- Putting something somewhere changes one place. -/
theorem node?_insert
    (tree : FileTree)
    (node : FileNode)
    (hPlace : tree.isAnchor place = false)
    (other : Place) :
    (tree.insert place node).node? other =
      if other = place then some node
      else tree.node? other := by
  have hSame :
      (tree.insert place node).isAnchor other =
        tree.isAnchor other :=
    rfl
  rw [node?, hSame, node?]
  by_cases hOther : other = place
  · simp [hOther, hPlace, insert]
  · simp [hOther, insert, erase, lookup_cons_eq,
      lookup_filter_ne]

theorem nodup_erase
    (hDistinct : (tree.entries.map Prod.fst).Nodup)
    (place : Place) :
    ((tree.erase place).entries.map Prod.fst).Nodup :=
  hDistinct.sublist (List.filter_sublist.map Prod.fst)

theorem nodup_insert
    (hDistinct : (tree.entries.map Prod.fst).Nodup)
    (place : Place)
    (node : FileNode) :
    ((tree.insert place node).entries.map
      Prod.fst).Nodup := by
  refine List.nodup_cons.mpr
    ⟨?_, nodup_erase hDistinct place⟩
  simp [erase]

/-
  A lookup in a list of which some entries were dropped,
  where each key is listed once.
-/
theorem lookup_filter
    (keep : Place × FileNode → Bool)
    (entries : List (Place × FileNode))
    (hDistinct : (entries.map Prod.fst).Nodup) :
    (entries.filter keep).lookup place =
      (entries.lookup place).filter fun node =>
        keep (place, node) := by
  induction entries with
  | nil =>
      simp
  | cons entry entries ih =>
      rcases List.nodup_cons.mp hDistinct with
        ⟨hKey, hDistinct⟩
      specialize ih hDistinct
      rw [lookup_cons_eq]
      by_cases hPlace : place = entry.1
      · have hMissing : entries.lookup place = none := by
          rw [List.lookup_eq_none_iff]
          intro other hOther
          have hNe : place ≠ other.1 := by
            rintro rfl
            exact hKey (hPlace ▸ List.mem_map_of_mem hOther)
          simpa using hNe
        rw [if_pos hPlace, Option.filter_some, hPlace]
        by_cases hKeep : keep entry = true
        · rw [List.filter_cons_of_pos hKeep,
            lookup_cons_eq, if_pos rfl, if_pos hKeep]
        · rw [List.filter_cons_of_neg hKeep,
            if_neg hKeep, ← hPlace, ih, hMissing,
            Option.filter_none]
      · rw [if_neg hPlace, ← ih]
        by_cases hKeep : keep entry = true
        · rw [List.filter_cons_of_pos hKeep,
            lookup_cons_eq, if_neg hPlace]
        · rw [List.filter_cons_of_neg hKeep]

/- An entry that is kept is found as before. -/
theorem lookup_filter_of_keep
    (keep : Place × FileNode → Bool)
    {entries : List (Place × FileNode)}
    {node : FileNode}
    (hLookup : entries.lookup place = some node)
    (hKeep : keep (place, node) = true) :
    (entries.filter keep).lookup place = some node := by
  induction entries with
  | nil =>
      cases hLookup
  | cons entry entries ih =>
      rw [lookup_cons_eq] at hLookup
      by_cases hPlace : place = entry.1
      · rw [if_pos hPlace, Option.some.injEq] at hLookup
        have hEntry : entry = (place, node) := by
          rw [hPlace, ← hLookup]
        rw [List.filter_cons_of_pos (by rw [hEntry, hKeep]),
          lookup_cons_eq, if_pos hPlace, hLookup]
      · rw [if_neg hPlace] at hLookup
        by_cases hEntry : keep entry = true
        · rw [List.filter_cons_of_pos hEntry,
            lookup_cons_eq, if_neg hPlace, ih hLookup]
        · rw [List.filter_cons_of_neg hEntry, ih hLookup]

/- Dropping entries shows at their places alone. -/
theorem node?_filter
    (hDistinct : (tree.entries.map Prod.fst).Nodup)
    (keep : Place × FileNode → Bool)
    (hPlace : tree.isAnchor place = false) :
    FileTree.node?
        { tree with entries := tree.entries.filter keep }
        place =
      (tree.node? place).filter fun node =>
        keep (place, node) := by
  have hSame :
      FileTree.isAnchor
          { tree with entries := tree.entries.filter keep }
          place =
        false :=
    hPlace
  simp [node?, hPlace, hSame, lookup_filter keep _ hDistinct]

------------------------------------------------------------
-- Changes Below a Place
------------------------------------------------------------

/-
  Where an entry came from when all at and below a place was
  moved to another one.
-/
def graftSource?
    (place target other : Place) : Option Place :=
  if target <+: other then
    some (place ++ other.drop target.length)
  else if place <+: other then none
  else some other

/- Nothing comes from where the moved entries go. -/
theorem not_prefix_of_graftSource?
    {target other key : Place}
    (hInto : ¬ place <+: target)
    (hOver : ¬ target <+: place)
    (hSource : graftSource? place target other = some key) :
    ¬ target <+: key := by
  unfold graftSource? at hSource
  split_ifs at hSource with hTarget hPlace
  · rw [← Option.some.inj hSource]
    intro hBelow
    rcases List.prefix_or_prefix_of_prefix hBelow
      (List.prefix_append place _) with hOver' | hInto'
    · exact hOver hOver'
    · exact hInto hInto'
  · rw [← Option.some.inj hSource]
    exact hTarget

/- An entry goes to the place that it is found to be from. -/
theorem eq_graftedPlace_iff
    {target other key : Place}
    (hKey : ¬ target <+: key) :
    other = graftedPlace place target key ↔
      graftSource? place target other = some key := by
  unfold graftedPlace graftSource?
  by_cases hBelow : place <+: key
  · rcases hBelow with ⟨rest, rfl⟩
    rw [if_pos (by simp), List.drop_left]
    by_cases hOther : target <+: other
    · rcases hOther with ⟨last, rfl⟩
      simp
    · rw [if_neg hOther]
      constructor
      · rintro rfl
        exact absurd (List.prefix_append _ _) hOther
      · intro hSource
        split_ifs at hSource with hPlace
        rw [Option.some.inj hSource] at hPlace
        exact absurd (List.prefix_append _ _) hPlace
  · rw [if_neg (by simpa using hBelow)]
    by_cases hOther : target <+: other
    · rw [if_pos hOther]
      constructor
      · rintro rfl
        exact absurd hOther hKey
      · intro hSource
        rw [← Option.some.inj hSource] at hBelow
        exact absurd (List.prefix_append _ _) hBelow
    · rw [if_neg hOther]
      constructor
      · rintro rfl
        exact if_neg hBelow
      · intro hSource
        split_ifs at hSource
        exact Option.some.inj hSource

/-
  A lookup in a list in which all at and below a place was
  moved to another one.
-/
theorem lookup_graft
    (entries : List (Place × FileNode))
    {target : Place}
    (hInto : ¬ place <+: target)
    (hOver : ¬ target <+: place)
    (other : Place) :
    ((entries.filter fun entry =>
      !target.isPrefixOf entry.1).map fun entry =>
        (graftedPlace place target entry.1,
          entry.2)).lookup other =
      (graftSource? place target other).bind
        (entries.lookup ·) := by
  induction entries with
  | nil =>
      cases graftSource? place target other with
      | none =>
          rfl
      | some key =>
          rfl
  | cons entry entries ih =>
      by_cases hTarget : target <+: entry.1
      · -- The entry is replaced, and no lookup asks for it.
        rw [List.filter_cons_of_neg (by simpa using hTarget),
          ih]
        cases hSource : graftSource? place target other with
        | none =>
            rfl
        | some key =>
            have hKey : key ≠ entry.1 := by
              rintro rfl
              exact not_prefix_of_graftSource? hInto hOver
                hSource hTarget
            rw [Option.bind_some, Option.bind_some,
              lookup_cons_eq, if_neg hKey]
      · have hKeep : ¬ target.isPrefixOf entry.1 = true := by
          rwa [List.isPrefixOf_iff_prefix]
        rw [List.filter_cons_of_pos (by simp [hKeep]),
          List.map_cons, lookup_cons_eq, ih]
        have hKey :
            other = graftedPlace place target entry.1 ↔
              graftSource? place target other =
                some entry.1 :=
          eq_graftedPlace_iff hTarget
        by_cases hHere :
          graftSource? place target other = some entry.1
        · rw [if_pos (hKey.mpr hHere), hHere,
            Option.bind_some, lookup_cons_eq, if_pos rfl]
        · rw [if_neg (fun hEq => hHere (hKey.mp hEq))]
          cases hSource : graftSource? place target other with
          | none =>
              rfl
          | some key =>
              have hNe : key ≠ entry.1 := by
                rintro rfl
                exact hHere hSource
              rw [Option.bind_some, Option.bind_some,
                lookup_cons_eq, if_neg hNe]

/-
  Moving all at and below a place to another one shows at
  and below both.
-/
theorem node?_graft
    {target : Place}
    (hInto : ¬ place <+: target)
    (hOver : ¬ target <+: place)
    (hPlace : tree.isAnchor place = false)
    (hTarget : tree.isAnchor target = false)
    (other : Place) :
    (tree.graft place target).node? other =
      (graftSource? place target other).bind tree.node? := by
  have hBelow {higher : Place}
      (hHigher : tree.isAnchor higher = false)
      {lower : Place}
      (hPrefix : higher <+: lower) :
      tree.isAnchor lower = false := by
    by_contra hAnchor
    rw [Bool.not_eq_false] at hAnchor
    rw [isAnchor_of_below hPrefix hAnchor] at hHigher
    cases hHigher
  have hSame :
      (tree.graft place target).isAnchor other =
        tree.isAnchor other :=
    rfl
  rw [node?, hSame]
  by_cases hAnchor : tree.isAnchor other = true
  · have hNotTarget : ¬ target <+: other := by
      intro hPrefix
      rw [hBelow hTarget hPrefix] at hAnchor
      cases hAnchor
    have hNotPlace : ¬ place <+: other := by
      intro hPrefix
      rw [hBelow hPlace hPrefix] at hAnchor
      cases hAnchor
    rw [if_pos hAnchor, graftSource?, if_neg hNotTarget,
      if_neg hNotPlace, Option.bind_some,
      node?_of_isAnchor hAnchor]
  · rw [if_neg hAnchor]
    apply (lookup_graft tree.entries hInto hOver other).trans
    cases hSource : graftSource? place target other with
    | none =>
        rfl
    | some key =>
        have hKey : tree.isAnchor key = false := by
          unfold graftSource? at hSource
          split_ifs at hSource
          · rw [← Option.some.inj hSource]
            exact hBelow hPlace (List.prefix_append _ _)
          · rw [← Option.some.inj hSource]
            simpa using hAnchor
        rw [Option.bind_some, Option.bind_some, node?,
          if_neg (by simp [hKey])]

/- Below a place that is bare, nothing is found. -/
theorem node?_of_isBareAt
    (hBare : tree.isBareAt place = true)
    {rest : Place}
    (hRest : rest ≠ []) :
    tree.node? (place ++ rest) = none := by
  rw [isBareAt, Bool.and_eq_true, Bool.not_eq_true'] at hBare
  rcases hBare with ⟨hAnchor, hEntries⟩
  have hNotAnchor :
      ¬ tree.isAnchor (place ++ rest) = true := by
    intro hBelow
    rw [isAnchor_of_below (List.prefix_append _ _) hBelow]
      at hAnchor
    cases hAnchor
  rw [node?, if_neg hNotAnchor, List.lookup_eq_none_iff]
  intro entry hEntry
  rw [List.all_eq_true] at hEntries
  have hKey := hEntries entry hEntry
  rw [bne_iff_ne]
  intro hEq
  have hPrefix :
      place.isPrefixOf (place ++ rest) = true :=
    List.isPrefixOf_iff_prefix.mpr (List.prefix_append _ _)
  rw [← hEq, hPrefix] at hKey
  simp [hRest] at hKey

------------------------------------------------------------
-- Directories That Stay
------------------------------------------------------------

/-
  All directories of a tree are directories of another one
  with the same working directory.
-/
structure Extends (tree tree' : FileTree) : Prop where
  home_eq : tree'.home = tree.home
  node : ∀ place, tree.node? place = some .directory →
    tree'.node? place = some .directory

theorem Extends.refl (tree : FileTree) :
    tree.Extends tree :=
  ⟨rfl, fun _ hNode => hNode⟩

theorem Extends.trans
    (hFirst : tree.Extends tree')
    (hSecond : tree'.Extends tree'') :
    tree.Extends tree'' :=
  ⟨hSecond.home_eq.trans hFirst.home_eq,
    fun place hNode =>
      hSecond.node place (hFirst.node place hNode)⟩

/-
  A change at a place that is no directory lets all
  directories be.
-/
theorem Extends.of_ne
    (hHome : tree'.home = tree.home)
    (hNode : tree.node? place ≠ some .directory)
    (hSame : ∀ other, other ≠ place →
      tree'.node? other = tree.node? other) :
    tree.Extends tree' := by
  refine ⟨hHome, ?_⟩
  intro other hOther
  have hNe : other ≠ place := by
    rintro rfl
    exact hNode hOther
  rw [hSame other hNe, hOther]

end FileTree

end Slideshow

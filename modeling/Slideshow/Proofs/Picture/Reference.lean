import Slideshow.Proofs.Picture.Plan
import Slideshow.Proofs.Text.Separator

/-
  This file proves which reference pictures are found, and
  that all that are planned with are still there when the
  picture is generated from the same files.

  A name is looked for as it is and then, by its stem, with
  each ending in order (`Reference.IsFoundAt`).  The names
  in a list are looked for one by one, and those that are
  not found are left out (`Reference.AreFound`).

  Key definitions include:
    * `Reference.withEnding`
    * `Reference.IsFoundAt`
    * `Reference.AreFound`
    * `Reference.IsResolved`

  Main results include:
    * `Reference.find?_eq_some_iff`
    * `Reference.existsUnique_isFoundAt_iff`
    * `Reference.areFound_filterMap`
    * `Reference.isResolved`
    * `Scenario.withFiles_of_mem_plan`
    * `Scenario.isResolved_and_generate_planned`
-/

namespace Slideshow

------------------------------------------------------------
-- Names
------------------------------------------------------------

namespace Reference

variable {tree : FileTree}
variable {directory name path : String}

/- The path of a stem with an ending. -/
def withEnding (directory stem ending : String) : String :=
  Path.join directory (stem ++ "." ++ ending)

/-
  A name is found at a path: at its own, or else at that of
  its stem with the first ending for which there is a file.
-/
inductive IsFoundAt
    (tree : FileTree)
    (directory name : String) :
    String → Prop
| exact
    (hFile :
      tree.isFile (Path.join directory name) = true) :
    IsFoundAt tree directory name (Path.join directory name)
| ending
    {stem ending : String}
    {before after : List String}
    (hNone :
      tree.isFile (Path.join directory name) = false)
    (hStem : Path.fileStem? name = some stem)
    (hEndings : endings = before ++ ending :: after)
    (hFirst : ∀ other ∈ before,
      tree.isFile (withEnding directory stem other) = false)
    (hFile :
      tree.isFile (withEnding directory stem ending) =
        true) :
    IsFoundAt tree directory name
      (withEnding directory stem ending)

/- What is found is the path at which the name is. -/
theorem find?_eq_some_iff :
    find? tree directory name = some path ↔
      IsFoundAt tree directory name path := by
  unfold find? candidates
  rw [List.find?_cons]
  cases hExact :
    tree.isFile (Path.join directory name) with
  | true =>
      constructor
      · rintro ⟨⟩
        exact .exact hExact
      · intro hFound
        cases hFound with
        | exact hFile =>
            rfl
        | ending hNone _ _ _ _ =>
            rw [hExact] at hNone
            cases hNone
  | false =>
      dsimp only
      cases hStem : Path.fileStem? name with
      | none =>
          constructor
          · rintro ⟨⟩
          · intro hFound
            cases hFound with
            | exact hFile =>
                rw [hExact] at hFile
                cases hFile
            | ending _ hSome _ _ _ =>
                rw [hStem] at hSome
                cases hSome
      | some stem =>
          simp only [List.find?_map, Option.map_eq_some_iff,
            List.find?_eq_some_iff_append]
          constructor
          · rintro ⟨ending,
              ⟨hFile, before, after, hEndings, hFirst⟩, rfl⟩
            exact .ending hExact hStem hEndings
              (by simpa [withEnding] using hFirst) hFile
          · intro hFound
            cases hFound with
            | exact hFile =>
                rw [hExact] at hFile
                cases hFile
            | @ending _ ending before after _ hSome hEndings
                hFirst hFile =>
                cases hStem.symm.trans hSome
                exact ⟨ending,
                  ⟨hFile, before, after, hEndings,
                    by simpa [withEnding] using hFirst⟩,
                  rfl⟩

/- A name is found if one of its paths is that of a file. -/
theorem existsUnique_isFoundAt_iff :
    (∃! path, IsFoundAt tree directory name path) ↔
      tree.isFile (Path.join directory name) = true ∨
        ∃ stem ending,
          Path.fileStem? name = some stem ∧
            ending ∈ endings ∧
            tree.isFile
              (withEnding directory stem ending) = true := by
  have hUnique :
      (∃! path, IsFoundAt tree directory name path) ↔
        (find? tree directory name).isSome = true := by
    simp only [← find?_eq_some_iff,
      Option.isSome_iff_exists]
    constructor
    · rintro ⟨path, hFound, -⟩
      exact ⟨path, hFound⟩
    · rintro ⟨path, hFound⟩
      exact ⟨path, hFound, fun other hOther =>
        Option.some.inj (hOther.symm.trans hFound)⟩
  rw [hUnique, find?, List.find?_isSome, candidates,
    List.exists_mem_cons_iff]
  cases Path.fileStem? name with
  | none =>
      simp
  | some stem =>
      simp [withEnding]

theorem isFile_of_find?
    (hFound : find? tree directory name = some path) :
    tree.isFile path = true :=
  List.find?_some hFound

------------------------------------------------------------
-- Lists of Names
------------------------------------------------------------

/-
  Names have been looked for one by one: each that is found
  has its path in the list, and the others are left out.
-/
inductive AreFound
    (tree : FileTree)
    (directory : String) :
    List String → List String → Prop
| nil :
    AreFound tree directory [] []
| found
    {name path : String}
    {names paths : List String}
    (hFound : IsFoundAt tree directory name path)
    (hRest : AreFound tree directory names paths) :
    AreFound tree directory (name :: names) (path :: paths)
| lost
    {name : String}
    {names paths : List String}
    (hLost : ∀ path, ¬ IsFoundAt tree directory name path)
    (hRest : AreFound tree directory names paths) :
    AreFound tree directory (name :: names) paths

/- The paths that are found are those of the names. -/
theorem areFound_filterMap
    (tree : FileTree)
    (directory : String)
    (names : List String) :
    AreFound tree directory names
      (names.filterMap (find? tree directory)) := by
  induction names with
  | nil =>
      exact .nil
  | cons name names ih =>
      cases hFind : find? tree directory name with
      | none =>
          rw [List.filterMap_cons_none hFind]
          refine .lost ?_ ih
          intro path hFound
          rw [find?_eq_some_iff.mpr hFound] at hFind
          cases hFind
      | some path =>
          rw [List.filterMap_cons_some hFind]
          exact .found (find?_eq_some_iff.mp hFind) ih

theorem names_comma (a b : String) :
    names (a ++ "," ++ b) = names a ++ names b := by
  have hComma : "," = String.singleton ',' := rfl
  rw [names, hComma, Text.split_append, List.map_append,
    List.filter_append]
  rfl

/-
  The names in lists are resolved in a directory: those in
  two lists one after the other, each to one path or none,
  and to paths of files alone.
-/
structure IsResolved
    (tree : FileTree)
    (directory : String) : Prop where
  comma :
    ∀ a b,
      findAll tree (a ++ "," ++ b) directory =
        findAll tree a directory ++ findAll tree b directory
  isFile :
    ∀ s, ∀ path ∈ findAll tree s directory,
      tree.isFile path = true
  found :
    ∀ s, AreFound tree directory (names s)
      (findAll tree s directory)
  found_iff :
    ∀ name,
      (∃! path, IsFoundAt tree directory name path) ↔
        tree.isFile (Path.join directory name) = true ∨
          ∃ stem ending,
            Path.fileStem? name = some stem ∧
              ending ∈ endings ∧
              tree.isFile
                (withEnding directory stem ending) = true

/- Names are resolved, whatever the files are. -/
theorem isResolved
    (tree : FileTree)
    (directory : String) :
    IsResolved tree directory where
  comma := by
    intro a b
    rw [findAll, names_comma, List.filterMap_append]
    rfl
  isFile := by
    intro s path hPath
    rcases List.mem_filterMap.mp hPath with
      ⟨name, -, hFind⟩
    exact isFile_of_find? hFind
  found := fun s =>
    areFound_filterMap tree directory (names s)
  found_iff := fun _ => existsUnique_isFoundAt_iff

end Reference

------------------------------------------------------------
-- References of Plans
------------------------------------------------------------

namespace Scenario

variable {scenario : Scenario}
variable {tree : FileTree}
variable {selection : Option Selection}
variable {aspect : AspectRatio}
variable {model : String}
variable {planned : PlannedImage}

/- A planned picture refers to files alone. -/
theorem isFile_of_planRecord
    {id : String}
    {record : ShotRecord}
    (hPlanned :
      scenario.planRecord tree aspect model id record =
        some planned) :
    ∀ path ∈ planned.request.references,
      tree.isFile path = true := by
  rcases Option.map_eq_some_iff.mp hPlanned with
    ⟨prompt, -, rfl⟩
  dsimp only
  cases record.referenceImages with
  | none =>
      simp
  | some names =>
      exact (Reference.isResolved tree _).isFile names

/- So no reference of a plan is dropped. -/
theorem withFiles_of_mem_plan
    (hPlanned :
      planned ∈
        scenario.plan tree selection aspect model) :
    planned.request.withFiles tree = planned.request := by
  rcases List.mem_filterMap.mp hPlanned with
    ⟨⟨record, position⟩, -, hItem⟩
  rw [Option.ite_none_right_eq_some] at hItem
  have hFiles := isFile_of_planRecord hItem.2
  rw [ImageRequest.withFiles,
    List.filter_eq_self.mpr hFiles]

/-
  Names of references are resolved to files in order.  So a
  picture that is generated from the files that it was
  planned with is asked for as planned, with all references.
-/
theorem isResolved_and_generate_planned
    [TempNaming] :
    (∀ tree directory,
      Reference.IsResolved tree directory) ∧
      ∀ (scenario : Scenario) (tree : FileTree)
        (selection : Option Selection)
        (aspect : AspectRatio) (model : String),
        ∀ planned ∈
          scenario.plan tree selection aspect model,
        ∀ (σ : Type) (generator : ImageGenerator σ) (s : σ),
          (planned.request.generate generator.logged
              planned.output (s, [])
              tree).state.2.map ImageCall.request =
            [planned.request] := by
  refine ⟨Reference.isResolved, ?_⟩
  intro scenario tree selection aspect model planned
    hPlanned σ generator s
  rcases planned.request.generate_logged generator
    planned.output s [] tree with
    ⟨call, last, hAsked, -, -, hLogged⟩
  rw [withFiles_of_mem_plan hPlanned] at hAsked
  rw [hLogged, ← hAsked]
  rfl

/- A record with a prompt that refers to three names. -/
def withNames : Scenario where
  root := "film"
  records :=
    [⟨none, none, none, none, some "A cat.",
      some "a, b.png , c"⟩]

/- Temporary files are numbered in what follows. -/
attribute [local instance] Temp.numbered

/- A name without an ending is found, and one by another. -/
theorem isResolved_and_generate_planned_withNames :
    let directory : Place := ["film", "pictures"]
    let tree : FileTree :=
      ⟨[(["film"], .directory), (directory, .directory),
        (directory ++ ["a.png"], .file [1] 0),
        (directory ++ ["b.webp"], .file [2] 0),
        (directory ++ ["b.jpg"], .file [3] 0)],
        [], by simp⟩
    let request : ImageRequest :=
      ⟨"A cat.", ["film/pictures/a.png",
        "film/pictures/b.jpg"], .square, "model"⟩
    ∃ planned ∈ withNames.plan tree none .square "model",
      planned.request = request ∧
        (request.generate ImageRequest.counting.logged
            planned.output (0, [])
            tree).state.2.map ImageCall.request =
          [request] := by
  intro directory tree request
  have hPlan :
      withNames.plan tree none .square "model" =
        [⟨"01", request,
          "film/generations/shot_01.png"⟩] := by
    decide +kernel
  refine ⟨⟨"01", request, "film/generations/shot_01.png"⟩,
    ?_, rfl, ?_⟩
  · rw [hPlan]
    exact List.mem_cons_self
  · exact isResolved_and_generate_planned.2 withNames tree
      none .square "model" _ (by rw [hPlan]; simp) Nat
      ImageRequest.counting 0

end Scenario

end Slideshow

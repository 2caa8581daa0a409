import Slideshow.Picture.Plan
import Slideshow.Picture.Png
import Slideshow.Proofs.Picture.Generate
import Slideshow.Proofs.Scenario.Declared

/-
  This file proves that pictures are generated where the
  images of the shots are looked for.

  A plan and the resolving of a scenario number the records
  on their own, and one of them leaves records out.  They
  agree on the path of each record nevertheless.  What is
  generated for one record stays when more is generated for
  others, so that in the end no prompted record lacks its
  image.

  Key definitions include:
    * `PlannedImage.IsFor`
    * `PlannedImage.generateAll`

  Main results include:
    * `Scenario.resolveRecord_eq_missing_iff`
    * `Scenario.plan_planRecord`
    * `Scenario.plan_isFor`
    * `PlannedImage.areWritten_of_generateAll`
    * `Scenario.plan_isFor_and_generateAll_complete`
-/

namespace Slideshow

------------------------------------------------------------
-- Plans
------------------------------------------------------------

namespace Scenario

variable {scenario : Scenario}
variable {tree : FileTree}

/- A record is missing if there is nothing at its path. -/
theorem resolveRecord_eq_missing_iff
    [PictureReader]
    {position : Nat}
    {record : ShotRecord} :
    scenario.resolveRecord tree position record =
        .ok (.skipped ⟨record.shotId position,
          scenario.imagePath record
            (record.shotId position), .missing⟩) ↔
      tree.pathExists
        (scenario.imagePath record
          (record.shotId position)) = false := by
  rw [resolveRecord_eq_resolve,
    DeclaredShot.resolve_eq_skipped_iff]
  unfold DeclaredShot.isReadable DeclaredShot.skip
    declaredShot
  dsimp only
  generalize scenario.imagePath record
    (record.shotId position) = image
  cases hExists : tree.pathExists image with
  | true =>
      simp
  | false =>
      cases hSize : PictureReader.size? tree image with
      | none =>
          simp
      | some size =>
          rw [PictureReader.pathExists_of_size? _ _ _ hSize]
            at hExists
          cases hExists

/- The records with a prompt that are selected. -/
def promptedRecords
    (scenario : Scenario)
    (selection : Option Selection) :
    List (ShotRecord × Nat) :=
  scenario.records.zipIdx.filter fun (record, position) =>
    record.imagePrompt.isSome &&
      isSelected selection (record.shotId position)

end Scenario

namespace PlannedImage

/-
  A picture is planned for a record at a position: it has
  the prompt of the record, and it goes to the path that is
  checked when the record is resolved.
-/
structure IsFor
    [PictureReader]
    (scenario : Scenario)
    (aspect : AspectRatio)
    (model : String)
    (planned : PlannedImage)
    (item : ShotRecord × Nat) : Prop where
  shotId_eq : planned.shotId = item.1.shotId item.2
  prompt_eq :
    item.1.imagePrompt.map Prompt.clean =
      some planned.request.prompt
  aspect_eq : planned.request.aspect = aspect
  model_eq : planned.request.model = model
  output_eq :
    planned.output =
      scenario.imagePath item.1 (item.1.shotId item.2)
  checked :
    ∀ tree,
      scenario.resolveRecord tree item.2 item.1 =
          .ok (.skipped ⟨planned.shotId, planned.output,
            .missing⟩) ↔
        tree.pathExists planned.output = false

/- What is planned for a record is for it. -/
theorem isFor_of_planRecord
    [PictureReader]
    {scenario : Scenario}
    {tree : FileTree}
    {aspect : AspectRatio}
    {model : String}
    {record : ShotRecord}
    {position : Nat}
    {planned : PlannedImage}
    (hPlanned :
      scenario.planRecord tree aspect model
        (record.shotId position) record = some planned) :
    planned.IsFor scenario aspect model
      (record, position) := by
  rcases Option.map_eq_some_iff.mp hPlanned with
    ⟨prompt, hPrompt, rfl⟩
  exact
    { shotId_eq := rfl
      prompt_eq := by rw [hPrompt, Option.map_some]
      aspect_eq := rfl
      model_eq := rfl
      output_eq := rfl
      checked := fun _ =>
        Scenario.resolveRecord_eq_missing_iff }

end PlannedImage

/-
  What is made of some elements of a list belongs to them,
  in order.
-/
theorem forall₂_filterMap_filter
    {α β : Type}
    {R : β → α → Prop}
    {f : α → Option β}
    {keep : α → Bool}
    (hKeep : ∀ a, keep a = (f a).isSome)
    (hR : ∀ a b, f a = some b → R b a)
    (xs : List α) :
    List.Forall₂ R (xs.filterMap f) (xs.filter keep) := by
  induction xs with
  | nil =>
      exact .nil
  | cons x xs ih =>
      have hHere := hKeep x
      cases hFirst : f x with
      | none =>
          rw [hFirst] at hHere
          rw [List.filterMap_cons_none hFirst,
            List.filter_cons_of_neg (by simp [hHere])]
          exact ih
      | some y =>
          rw [hFirst] at hHere
          rw [List.filterMap_cons_some hFirst,
            List.filter_cons_of_pos hHere]
          exact .cons (hR x y hFirst) ih

/-
  A plan has the picture that each record with a prompt
  asks for, of those that are selected, in order.
-/
theorem Scenario.plan_planRecord
    (scenario : Scenario)
    (tree : FileTree)
    (selection : Option Selection)
    (aspect : AspectRatio)
    (model : String) :
    List.Forall₂
      (fun planned item =>
        scenario.planRecord tree aspect model
          (item.1.shotId item.2) item.1 = some planned)
      (scenario.plan tree selection aspect model)
      (scenario.promptedRecords selection) := by
  apply forall₂_filterMap_filter
  · rintro ⟨record, position⟩
    dsimp only
    cases isSelected selection (record.shotId position) with
    | true =>
        simp [planRecord]
    | false =>
        simp
  · rintro ⟨record, position⟩ planned hPlanned
    rw [Option.ite_none_right_eq_some] at hPlanned
    exact hPlanned.2

/-
  A plan has one picture for each record with a prompt that
  is selected, in order.
-/
theorem Scenario.plan_isFor
    [PictureReader]
    (scenario : Scenario)
    (tree : FileTree)
    (selection : Option Selection)
    (aspect : AspectRatio)
    (model : String) :
    List.Forall₂
      (PlannedImage.IsFor scenario aspect model)
      (scenario.plan tree selection aspect model)
      (scenario.promptedRecords selection) :=
  (scenario.plan_planRecord tree selection aspect model).imp
    fun _ _ hPlanned =>
      PlannedImage.isFor_of_planRecord hPlanned

------------------------------------------------------------
-- Pictures
------------------------------------------------------------

namespace PlannedImage

variable [TempNaming]
variable {σ : Type}
variable {generator : ImageGenerator σ}
variable {s : σ}
variable {before : FileTree}

/-
  Generate the planned pictures one after the other, up to
  the first failure.
-/
def generateAll
    (generator : ImageGenerator σ) :
    List PlannedImage → σ → FileTree → Performed σ Unit
  | [], s, tree => ⟨.ok (), s, tree⟩
  | planned :: rest, s, tree =>
      (planned.request.generate generator planned.output s
        tree).andThen fun _ s tree =>
          generateAll generator rest s tree

/- A picture that is generated is written to its path. -/
theorem isWritten_of_generate
    {request : ImageRequest}
    {output path : String}
    (hOk :
      (request.generate generator output s before).result =
        .ok path) :
    ∃ content place,
      Temp.IsWritten output content before
        (request.generate generator output s before).tree
        place := by
  rw [ImageRequest.generate_eq] at hOk ⊢
  rcases (ImageRequest.isSaved_run_save output _ _).stored
    path hOk with
    ⟨-, content, place, -, -, hWritten⟩
  exact ⟨content, place, hWritten⟩

/- Pictures that are all generated are all written. -/
theorem areWritten_of_generateAll
    {plan : List PlannedImage}
    (hOk :
      (generateAll generator plan s before).result =
        .ok ()) :
    ∃ files : List (String × Bytes),
      files.map Prod.fst = plan.map output ∧
        Temp.AreWritten files before
          (generateAll generator plan s before).tree := by
  induction plan generalizing s before with
  | nil =>
      exact ⟨[], rfl, .nil⟩
  | cons planned rest ih =>
      rw [generateAll, Performed.andThen] at hOk ⊢
      cases hFirst :
        (planned.request.generate generator planned.output s
          before).result with
      | error e =>
          rw [hFirst] at hOk
          cases hOk
      | ok path =>
          simp only [hFirst] at hOk ⊢
          rcases isWritten_of_generate hFirst with
            ⟨content, place, hWritten⟩
          rcases ih hOk with ⟨files, hPaths, hRest⟩
          refine ⟨(planned.output, content) :: files, ?_,
            .cons hWritten hRest⟩
          rw [List.map_cons, List.map_cons, hPaths]

/- So there is something at the path of each of them. -/
theorem pathExists_of_generateAll
    {plan : List PlannedImage}
    {planned : PlannedImage}
    (hOk :
      (generateAll generator plan s before).result =
        .ok ())
    (hPlanned : planned ∈ plan) :
    (generateAll generator plan s before).tree.pathExists
      planned.output = true := by
  rcases areWritten_of_generateAll hOk with
    ⟨files, hPaths, hWritten⟩
  have hOutput : planned.output ∈ files.map Prod.fst := by
    rw [hPaths]
    exact List.mem_map_of_mem hPlanned
  rcases List.mem_map.mp hOutput with
    ⟨file, hFile, hPath⟩
  rcases hWritten.exists_found hFile with
    ⟨place, _, _, hFind, _, _⟩
  rw [← hPath]
  exact FileTree.pathExists_of_find hFind

end PlannedImage

------------------------------------------------------------
-- Pictures of Records
------------------------------------------------------------

namespace Scenario

variable {scenario : Scenario}
variable {tree : FileTree}

/- What is missing is missing at the path it gives. -/
theorem pathExists_of_mem_skipped
    [PictureReader]
    {limit : Option Nat}
    {list : ShotList}
    {skipped : SkippedShot}
    (hResolve : scenario.resolve tree limit = .ok list)
    (hSkipped : skipped ∈ list.skipped)
    (hReason : skipped.reason = .missing) :
    tree.pathExists skipped.image = false := by
  rcases resolve_eq_ok_iff_partitions.mp hResolve with
    ⟨-, hPartitions⟩
  rw [hPartitions.skipped] at hSkipped
  rcases List.mem_map.mp hSkipped with ⟨declared, -, rfl⟩
  cases hExists : tree.pathExists declared.image with
  | true =>
      simp [DeclaredShot.skip, hExists] at hReason
  | false =>
      exact hExists

/-
  A plan has one picture for each record with a prompt that
  is selected, in order, and it goes where the record looks
  for it.  If the pictures of all records are generated, no
  record with a prompt lacks its image.
-/
theorem plan_isFor_and_generateAll_complete
    [PictureReader]
    [TempNaming]
    (scenario : Scenario)
    (aspect : AspectRatio)
    (model : String) :
    (∀ tree selection,
      List.Forall₂
        (PlannedImage.IsFor scenario aspect model)
        (scenario.plan tree selection aspect model)
        (scenario.promptedRecords selection)) ∧
    ∀ (σ : Type) (generator : ImageGenerator σ) (s : σ)
        (tree before : FileTree),
      let done := PlannedImage.generateAll generator
        (scenario.plan tree none aspect model) s before
      done.result = .ok () →
      ∀ record position,
        scenario.records[position]? = some record →
        record.imagePrompt.isSome = true →
        (∀ skipped,
          scenario.resolveRecord done.tree position record =
              .ok (.skipped skipped) →
            skipped.reason ≠ .missing) ∧
        ∀ limit list,
          scenario.resolve done.tree limit = .ok list →
          ∀ skipped ∈ list.skipped,
            skipped.reason = .missing →
            skipped.image ≠
              scenario.imagePath record
                (record.shotId position) := by
  refine ⟨fun tree selection =>
    plan_isFor scenario tree selection aspect model, ?_⟩
  intro σ generator s tree before done hOk record position
    hRecord hPrompt
  have hExists :
      done.tree.pathExists
        (scenario.imagePath record
          (record.shotId position)) = true := by
    have hMem :
        (record, position) ∈
          scenario.promptedRecords none := by
      simp [promptedRecords, List.mem_zipIdx_iff_getElem?,
        hRecord, hPrompt, isSelected]
    rcases List.mem_iff_getElem.mp hMem with ⟨i, hi, hItem⟩
    have hPlan := plan_isFor scenario tree none aspect model
    have hBound :
        i < (scenario.plan tree none aspect model).length
      := by
      rw [hPlan.length_eq]
      exact hi
    have hFor := hPlan.get hBound hi
    have hOutput := hFor.output_eq
    rw [List.get_eq_getElem, List.get_eq_getElem, hItem]
      at hOutput
    rw [← hOutput]
    exact PlannedImage.pathExists_of_generateAll hOk
      (List.getElem_mem hBound)
  constructor
  · intro skipped hSkipped hReason
    rw [resolveRecord_eq_resolve,
      DeclaredShot.resolve_eq_skipped_iff] at hSkipped
    rcases hSkipped with ⟨-, rfl⟩
    simp [DeclaredShot.skip, declaredShot, hExists]
      at hReason
  · intro limit list hResolve skipped hSkipped hReason hEq
    have hMissing := pathExists_of_mem_skipped hResolve
      hSkipped hReason
    rw [hEq, hExists] at hMissing
    cases hMissing

/- Two records with a prompt around one without. -/
def withPrompts : Scenario where
  root := "film"
  records :=
    [⟨none, none, none, none, some "A cat.", none⟩,
      ⟨none, none, some "b.png", none, none, none⟩,
      ⟨some (.number 7), none, some "c.png", none,
        some "A **dog**.", none⟩]

section Examples

/- The pictures are PNG files, and temporary files are
   numbered, in what follows. -/
attribute [local instance] Png.reader Temp.numbered

/- The image of a record that was generated is found. -/
theorem plan_isFor_and_generateAll_complete_withPrompts :
    let generator : ImageGenerator Nat :=
      fun _ n => (.ok (Png.blank ⟨8, 8⟩), n + 1)
    let done := PlannedImage.generateAll generator
      (withPrompts.plan .empty none .square "model") 0
        .empty
    ∃ list,
      done.result = .ok () ∧
        withPrompts.resolve done.tree none = .ok list ∧
        ∀ skipped ∈ list.skipped,
          skipped.reason = .missing →
          skipped.image ≠ "film/generations/shot_01.png" := by
  intro generator done
  have hDone : done.result.isOk = true := by
    decide +kernel
  have hResolve :
      (withPrompts.resolve done.tree none).isOk = true := by
    decide +kernel
  rcases Outcome.exists_eq_ok_of_isOk hDone with ⟨⟨⟩, hOk⟩
  rcases Outcome.exists_eq_ok_of_isOk hResolve with
    ⟨list, hList⟩
  have hComplete :=
    (plan_isFor_and_generateAll_complete withPrompts
      .square "model").2 Nat generator 0 .empty .empty hOk
      ⟨none, none, none, none, some "A cat.", none⟩ 0
      rfl rfl
  have hPath :
      withPrompts.imagePath
          ⟨none, none, none, none, some "A cat.", none⟩
          (ShotRecord.shotId
            ⟨none, none, none, none, some "A cat.", none⟩
            0) =
        "film/generations/shot_01.png" := by
    decide +kernel
  rw [← hPath]
  exact ⟨list, hOk, hList, hComplete.2 none list hList⟩

end Examples

end Scenario

end Slideshow

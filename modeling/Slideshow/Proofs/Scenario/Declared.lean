import Slideshow.Proofs.Scenario.Resolve

/-
  This file proves what becomes of the records of a
  scenario: those whose pictures can be read are its shots,
  in order, and all others are skipped, whatever else they
  say.

  Records are looked at in their places, each with the id of
  its shot and the path of its image (`DeclaredShot`).  What
  is wrong with one (`DeclaredShot.Fails`) and what its shot
  has to be (`DeclaredShot.Shows`) are relations to the
  reading of its timing and its move.  Resolving a scenario
  is resolving its declared shots one by one, so that the
  first one that fails decides the error.

  Key definitions include:
    * `DeclaredShot`
    * `DeclaredShot.isReadable`
    * `DeclaredShot.Fails`
    * `DeclaredShot.Shows`
    * `Scenario.declaredShots`
    * `ShotList.Partitions`

  Main results include:
    * `Scenario.resolveFrom_eq_mapM`
    * `DeclaredShot.resolve_eq_ok_iff`
    * `DeclaredShot.resolve_eq_error_iff`
    * `Scenario.resolve_eq_ok_iff_partitions`
    * `Scenario.not_le_zero_of_resolve`
    * `Scenario.resolve_eq_error_iff_firstFails`
    * `Scenario.resolve_partitions`
-/

namespace Slideshow

------------------------------------------------------------
-- Declared Shots
------------------------------------------------------------

/-
  A record in its place in a scenario, with the id of its
  shot and the path of its image.
-/
structure DeclaredShot where
  record : ShotRecord
  id : String
  image : String
deriving DecidableEq, Repr

namespace DeclaredShot

/- The timing that is declared. -/
def timing (declared : DeclaredShot) : String :=
  declared.record.timing.getD defaultTiming

/- The picture can be read. -/
def isReadable
    [PictureReader]
    (tree : FileTree)
    (declared : DeclaredShot) : Bool :=
  (PictureReader.size? tree declared.image).isSome

/- How a shot without a picture is skipped. -/
def skip
    (tree : FileTree)
    (declared : DeclaredShot) : SkippedShot where
  id := declared.id
  image := declared.image
  reason :=
    if tree.pathExists declared.image then .unreadable
    else .missing

/-
  What is wrong with a declared shot: its timing cannot be
  read, its timing is not positive, or else its move cannot
  be read.  The errors name the shot.
-/
inductive Fails (declared : DeclaredShot) : Error → Prop
| timing {fault : FormatFault}
    (hRange :
      TimeRange.read declared.timing = .error fault) :
    Fails declared (.format (.inShot declared.id fault))
| empty {range : TimeRange}
    (hRange : TimeRange.read declared.timing = .ok range)
    (hEmpty : range.duration ≤ 0.0) :
    Fails declared
      (.format (.emptyShot declared.id declared.timing))
| motion {range : TimeRange} {name : String}
    {fault : MotionFault}
    (hRange : TimeRange.read declared.timing = .ok range)
    (hLasts : ¬ range.duration ≤ 0.0)
    (hName : declared.record.motion = some name)
    (hMotion : MotionEffect.read name = .error fault) :
    Fails declared
      (.validation (.inShot declared.id (.motion fault)))

/- The move of a shot is the declared one, if there is one. -/
def HasMotion
    (declared : DeclaredShot)
    (motion : Option MotionEffect) : Prop :=
  match declared.record.motion with
  | none => motion = none
  | some name =>
      ∃ effect,
        MotionEffect.read name = .ok effect ∧
          motion = some effect

/- A shot is the one that is declared. -/
structure Shows
    [PictureReader]
    (tree : FileTree)
    (declared : DeclaredShot)
    (shot : Shot) : Prop where
  id_eq : shot.id = declared.id
  image_eq : shot.image = declared.image
  size?_eq :
    PictureReader.size? tree declared.image = some shot.source
  read_eq : TimeRange.read declared.timing = .ok shot.range
  lasts : ¬ shot.range.duration ≤ 0.0
  hasMotion : declared.HasMotion shot.motion

/- Resolve a declared shot. -/
def resolve
    [PictureReader]
    (tree : FileTree)
    (declared : DeclaredShot) :
    Except Error ResolvedRecord :=
  match PictureReader.size? tree declared.image with
  | none => .ok (.skipped (declared.skip tree))
  | some source =>
      (declared.record.toShot declared.id declared.image
        source).map .kept

end DeclaredShot

namespace Scenario

/- The shot that a record declares at a position. -/
def declaredShot
    (scenario : Scenario)
    (position : Nat)
    (record : ShotRecord) : DeclaredShot where
  record := record
  id := record.shotId position
  image :=
    scenario.imagePath record (record.shotId position)

/- The shots that the records up to a limit declare. -/
def declaredShots
    (scenario : Scenario)
    (limit : Option Nat) : List DeclaredShot :=
  (scenario.records.take
      (limit.getD scenario.records.length)).mapIdx
    scenario.declaredShot

end Scenario

/-
  The shots and the skipped ones of a list divide declared
  shots by their pictures and keep the order on both sides.
-/
structure ShotList.Partitions
    [PictureReader]
    (tree : FileTree)
    (declared : List DeclaredShot)
    (list : ShotList) : Prop where
  shots :
    List.Forall₂ (DeclaredShot.Shows tree)
      (declared.filter (DeclaredShot.isReadable tree))
      list.shots
  skipped :
    list.skipped =
      (declared.filter fun shot =>
          !shot.isReadable tree).map
        (DeclaredShot.skip tree)

------------------------------------------------------------
-- Single Records
------------------------------------------------------------

namespace DeclaredShot

variable {tree : FileTree}
variable {declared : DeclaredShot}
variable {e : Error}

/- The error of a declared shot names it. -/
theorem detail_of_fails
    (hFails : declared.Fails e) :
    ∃ cause,
      e.detail = "shot " ++ declared.id ++ ": " ++ cause := by
  cases hFails with
  | @timing fault hRange =>
      exact ⟨fault.text, rfl⟩
  | empty hRange hEmpty =>
      have hMark : ": timing '" = ": " ++ "timing '" := by
        decide
      refine ⟨"timing '" ++ declared.timing ++
        "' has non-positive duration", ?_⟩
      show "shot " ++ declared.id ++ ": timing '" ++
          declared.timing ++ "' has non-positive duration" =
        _
      rw [hMark]
      simp only [String.append_assoc]
  | @motion range name fault hRange hLasts hName hMotion =>
      exact ⟨fault.text, rfl⟩

/- The move of a record is read as the declared one. -/
theorem readMotion_eq_ok_iff
    {motion : Option MotionEffect} :
    declared.record.readMotion declared.id = .ok motion ↔
      declared.HasMotion motion := by
  unfold ShotRecord.readMotion HasMotion
  cases declared.record.motion with
  | none =>
      simp [eq_comm]
  | some name =>
      cases hRead : MotionEffect.read name with
      | error fault =>
          simp [hRead]
      | ok effect =>
          simp [hRead, eq_comm]

/- How reading the move of a record fails. -/
theorem readMotion_eq_error_iff :
    declared.record.readMotion declared.id = .error e ↔
      ∃ name fault,
        declared.record.motion = some name ∧
          MotionEffect.read name = .error fault ∧
          e =
            .validation
              (.inShot declared.id (.motion fault)) := by
  unfold ShotRecord.readMotion
  cases declared.record.motion with
  | none =>
      simp
  | some name =>
      cases hRead : MotionEffect.read name with
      | error fault =>
          simp [hRead, eq_comm]
      | ok effect =>
          simp [hRead]

/- What is wrong is found out when the shot is made. -/
theorem toShot_eq_error_iff
    {source : FrameSize} :
    declared.record.toShot declared.id declared.image
        source = .error e ↔
      declared.Fails e := by
  unfold ShotRecord.toShot
  simp only [Outcome.bind_eq_error_iff,
    ShotRecord.readRange_eq_error_iff,
    ShotRecord.readRange_eq_ok_iff, readMotion_eq_error_iff]
  constructor
  · rintro ((⟨fault, hRange, rfl⟩ |
      ⟨range, hRange, hEmpty, rfl⟩) |
      ⟨range, ⟨hRange, hLasts⟩,
        ⟨name, fault, hName, hMotion, rfl⟩ | ⟨_, _, hPure⟩⟩)
    · exact .timing hRange
    · exact .empty hRange hEmpty
    · exact .motion hRange hLasts hName hMotion
    · cases hPure
  · intro hFails
    cases hFails with
    | timing hRange =>
        exact Or.inl (Or.inl ⟨_, hRange, rfl⟩)
    | empty hRange hEmpty =>
        exact Or.inl (Or.inr ⟨_, hRange, hEmpty, rfl⟩)
    | motion hRange hLasts hName hMotion =>
        exact Or.inr ⟨_, ⟨hRange, hLasts⟩,
          Or.inl ⟨_, _, hName, hMotion, rfl⟩⟩

variable [PictureReader]

/- How resolving a declared shot fails. -/
theorem resolve_eq_error_iff :
    declared.resolve tree = .error e ↔
      declared.isReadable tree = true ∧
        declared.Fails e := by
  unfold resolve isReadable
  cases PictureReader.size? tree declared.image with
  | none =>
      simp
  | some source =>
      simp only [Outcome.map_eq_error_iff,
        toShot_eq_error_iff, Option.isSome_some, true_and]

/- A declared shot that can be read is kept. -/
theorem resolve_eq_kept_iff
    {shot : Shot} :
    declared.resolve tree = .ok (.kept shot) ↔
      declared.Shows tree shot := by
  unfold resolve
  cases hSize : PictureReader.size? tree declared.image with
  | none =>
      constructor
      · intro hResolve
        cases hResolve
      · intro hShows
        cases hSize.symm.trans hShows.size?_eq
  | some source =>
      simp only [Outcome.map_eq_ok_iff,
        ShotRecord.toShot_eq_ok_iff,
        ShotRecord.readRange_eq_ok_iff,
        readMotion_eq_ok_iff]
      constructor
      · rintro ⟨made, ⟨range, motion, ⟨hRange, hLasts⟩,
          hMotion, rfl⟩, hEq⟩
        cases hEq
        exact ⟨rfl, rfl, hSize, hRange, hLasts, hMotion⟩
      · intro hShows
        cases hSize.symm.trans hShows.size?_eq
        refine ⟨shot, ⟨shot.range, shot.motion,
          ⟨hShows.read_eq, hShows.lasts⟩, hShows.hasMotion,
          ?_⟩, rfl⟩
        rw [← hShows.id_eq, ← hShows.image_eq]

/- A declared shot that cannot be read is skipped. -/
theorem resolve_eq_skipped_iff
    {skipped : SkippedShot} :
    declared.resolve tree = .ok (.skipped skipped) ↔
      declared.isReadable tree = false ∧
        skipped = declared.skip tree := by
  unfold resolve isReadable
  cases PictureReader.size? tree declared.image with
  | none =>
      simp [eq_comm]
  | some source =>
      simp [Outcome.map_eq_ok_iff]

end DeclaredShot

------------------------------------------------------------
-- Lists of Records
------------------------------------------------------------

/-
  The first declared shot that has a picture and something
  wrong decides the error, which names it.
-/
def DeclaredShot.FirstFails
    [PictureReader]
    (tree : FileTree)
    (declared : List DeclaredShot)
    (e : Error) : Prop :=
  ∃ before shot after,
    declared = before ++ shot :: after ∧
      shot.isReadable tree = true ∧ shot.Fails e ∧
      (∃ cause,
        e.detail = "shot " ++ shot.id ++ ": " ++ cause) ∧
      ∀ earlier ∈ before, earlier.isReadable tree = true →
        ∀ d, ¬ earlier.Fails d

namespace DeclaredShot

variable [PictureReader]
variable {tree : FileTree}
variable {declared : List DeclaredShot}

/- A shot can be resolved unless something is wrong. -/
theorem exists_resolve_eq_ok_iff
    {shot : DeclaredShot} :
    (∃ resolved, shot.resolve tree = .ok resolved) ↔
      (shot.isReadable tree = true →
        ∀ e, ¬ shot.Fails e) := by
  constructor
  · rintro ⟨resolved, hResolve⟩ hReadable e hFails
    cases hResolve.symm.trans
      (resolve_eq_error_iff.mpr ⟨hReadable, hFails⟩)
  · intro hNone
    cases hResolve : shot.resolve tree with
    | error e =>
        rcases resolve_eq_error_iff.mp hResolve with
          ⟨hReadable, hFails⟩
        exact absurd hFails (hNone hReadable e)
    | ok resolved =>
        exact ⟨resolved, rfl⟩

/- Declared shots fail as the first of them that fails. -/
theorem mapM_resolve_eq_error_iff
    {e : Error} :
    declared.mapM (resolve tree) = .error e ↔
      FirstFails tree declared e := by
  rw [Outcome.mapM_eq_error_iff]
  simp only [exists_resolve_eq_ok_iff, resolve_eq_error_iff]
  constructor
  · rintro ⟨before, shot, after, hEq, hBefore, hReadable,
      hFails⟩
    exact ⟨before, shot, after, hEq, hReadable, hFails,
      detail_of_fails hFails, hBefore⟩
  · rintro ⟨before, shot, after, hEq, hReadable, hFails, _,
      hBefore⟩
    exact ⟨before, shot, after, hEq, hBefore, hReadable,
      hFails⟩

/- What is resolved divides the declared shots. -/
theorem partitions_of_forall₂
    {resolved : List ResolvedRecord}
    (hResolved :
      List.Forall₂
        (fun shot result => shot.resolve tree = .ok result)
        declared resolved) :
    ShotList.Partitions tree declared
      ⟨resolved.filterMap ResolvedRecord.shot?,
        resolved.filterMap ResolvedRecord.skipped?⟩ := by
  induction hResolved with
  | nil =>
      exact ⟨.nil, rfl⟩
  | @cons shot result declared resolved hFirst _ ih =>
      cases result with
      | kept kept =>
          have hShows := resolve_eq_kept_iff.mp hFirst
          have hReadable : shot.isReadable tree = true := by
            rw [isReadable, hShows.size?_eq]
            rfl
          constructor
          · rw [List.filter_cons_of_pos hReadable]
            exact .cons hShows ih.shots
          · rw [List.filter_cons_of_neg (by simp [hReadable])]
            exact ih.skipped
      | skipped skipped =>
          rcases resolve_eq_skipped_iff.mp hFirst with
            ⟨hReadable, rfl⟩
          constructor
          · rw [List.filter_cons_of_neg (by simp [hReadable])]
            exact ih.shots
          · rw [List.filter_cons_of_pos (by simp [hReadable])]
            exact congrArg (shot.skip tree :: ·) ih.skipped

/- What divides the declared shots is what is resolved. -/
theorem exists_forall₂_of_partitions
    {shots : List Shot}
    {skipped : List SkippedShot}
    (hPartitions :
      ShotList.Partitions tree declared ⟨shots, skipped⟩) :
    ∃ resolved,
      List.Forall₂
          (fun shot result =>
            shot.resolve tree = .ok result)
          declared resolved ∧
        shots =
          resolved.filterMap ResolvedRecord.shot? ∧
        skipped =
          resolved.filterMap ResolvedRecord.skipped? := by
  induction declared generalizing shots skipped with
  | nil =>
      rcases hPartitions with ⟨hShots, hSkipped⟩
      cases hShots
      cases hSkipped
      exact ⟨[], .nil, rfl, rfl⟩
  | cons shot declared ih =>
      rcases hPartitions with ⟨hShots, hSkipped⟩
      cases hReadable : shot.isReadable tree with
      | true =>
          rw [List.filter_cons_of_pos hReadable,
            List.forall₂_cons_left_iff] at hShots
          rw [List.filter_cons_of_neg (by simp [hReadable])]
            at hSkipped
          rcases hShots with ⟨kept, rest, hShows, hRest, rfl⟩
          rcases ih ⟨hRest, hSkipped⟩ with
            ⟨resolved, hResolved, rfl, rfl⟩
          exact ⟨.kept kept :: resolved,
            .cons (resolve_eq_kept_iff.mpr hShows) hResolved,
            rfl, rfl⟩
      | false =>
          rw [List.filter_cons_of_neg (by simp [hReadable])]
            at hShots
          rw [List.filter_cons_of_pos (by simp [hReadable])]
            at hSkipped
          have hPartitions :
              ShotList.Partitions tree declared
                ⟨shots,
                  (declared.filter fun shot =>
                      !shot.isReadable tree).map
                    (skip tree)⟩ :=
            ⟨hShots, rfl⟩
          rcases ih hPartitions with
            ⟨resolved, hResolved, hKept, hRest⟩
          refine ⟨.skipped (shot.skip tree) :: resolved,
            .cons ?_ hResolved, hKept, ?_⟩
          · exact resolve_eq_skipped_iff.mpr
              ⟨hReadable, rfl⟩
          · exact hSkipped.trans
              (congrArg (shot.skip tree :: ·) hRest)

end DeclaredShot

------------------------------------------------------------
-- Scenarios
------------------------------------------------------------

namespace Scenario

variable {scenario : Scenario}
variable {tree : FileTree}

section Resolved

variable [PictureReader]

/- Resolving a record is resolving the shot it declares. -/
theorem resolveRecord_eq_resolve
    (position : Nat)
    (record : ShotRecord) :
    scenario.resolveRecord tree position record =
      (scenario.declaredShot position record).resolve
        tree := by
  unfold resolveRecord DeclaredShot.resolve
    DeclaredShot.skip declaredShot
  dsimp only
  cases hSize :
      PictureReader.size? tree
        (scenario.imagePath record
          (record.shotId position)) with
  | none =>
      cases tree.pathExists
          (scenario.imagePath record
            (record.shotId position)) with
      | false =>
          rfl
      | true =>
          rfl
  | some source =>
      rw [PictureReader.pathExists_of_size? _ _ _ hSize]
      rfl

/- Resolving records is resolving the declared shots. -/
theorem resolveFrom_eq_mapM
    (position : Nat)
    (records : List ShotRecord) :
    scenario.resolveFrom tree position records =
      (records.mapIdx fun i record =>
          scenario.declaredShot (position + i) record).mapM
        (DeclaredShot.resolve tree) := by
  induction records generalizing position with
  | nil =>
      rfl
  | cons record records ih =>
      rw [resolveFrom, resolveRecord_eq_resolve,
        ih (position + 1), List.mapIdx_cons,
        List.mapM_cons]
      simp only [Nat.add_zero, Nat.add_assoc, Nat.add_comm 1]

end Resolved

variable {limit : Option Nat}

/- The records up to a limit are the first ones. -/
theorem recordsWithin_eq_take :
    scenario.recordsWithin limit =
      scenario.records.take
        (limit.getD scenario.records.length) := by
  cases limit with
  | none =>
      exact List.take_length.symm
  | some n =>
      rfl

variable [PictureReader]

/- A scenario is resolved by its declared shots. -/
theorem resolveFrom_recordsWithin :
    scenario.resolveFrom tree 0
        (scenario.recordsWithin limit) =
      (scenario.declaredShots limit).mapM
        (DeclaredShot.resolve tree) := by
  rw [resolveFrom_eq_mapM, recordsWithin_eq_take,
    declaredShots]
  simp only [Nat.zero_add]

/- When a scenario is resolved, and to which shots. -/
theorem resolve_eq_ok_iff_partitions
    {list : ShotList} :
    scenario.resolve tree limit = .ok list ↔
      list.shots ≠ [] ∧
        list.Partitions tree
          (scenario.declaredShots limit) := by
  rw [resolve_eq_ok_iff]
  simp only [resolveFrom_recordsWithin,
    Outcome.mapM_eq_ok_iff]
  constructor
  · rintro ⟨resolved, hResolved, hShots, rfl⟩
    exact ⟨hShots,
      DeclaredShot.partitions_of_forall₂ hResolved⟩
  · rintro ⟨hShots, hPartitions⟩
    rcases DeclaredShot.exists_forall₂_of_partitions
        hPartitions with
      ⟨resolved, hResolved, hKept, hSkipped⟩
    refine ⟨resolved, hResolved, hShots, ?_⟩
    rw [← hKept, ← hSkipped]

/- All ways in which resolving a scenario fails. -/
theorem resolve_eq_error_iff
    {e : Error} :
    scenario.resolve tree limit = .error e ↔
      (scenario.declaredShots limit).mapM
          (DeclaredShot.resolve tree) = .error e ∨
        ∃ skipped,
          ShotList.Partitions tree
              (scenario.declaredShots limit)
              ⟨[], skipped⟩ ∧
            e =
              .validation
                (.noValidShots skipped.length) := by
  unfold resolve
  rw [Outcome.bind_eq_error_iff, resolveFrom_recordsWithin]
  refine or_congr_right ?_
  simp only [Outcome.guard_eq_error_iff, List.isEmpty_iff,
    Outcome.mapM_eq_ok_iff]
  constructor
  · rintro ⟨resolved, hResolved, ⟨hNone, rfl⟩ | ⟨_, hPure⟩⟩
    · refine ⟨_, ?_, rfl⟩
      rw [← hNone]
      exact DeclaredShot.partitions_of_forall₂ hResolved
    · cases hPure
  · rintro ⟨skipped, hPartitions, rfl⟩
    rcases DeclaredShot.exists_forall₂_of_partitions
        hPartitions with
      ⟨resolved, hResolved, hKept, rfl⟩
    exact ⟨resolved, hResolved, Or.inl ⟨hKept.symm, rfl⟩⟩

end Scenario

namespace ShotList

variable [PictureReader]
variable {tree : FileTree}
variable {declared : List DeclaredShot}

/- Every shot of a list is one that was declared. -/
theorem Partitions.exists_shows
    {list : ShotList}
    (hPartitions : list.Partitions tree declared)
    {shot : Shot}
    (hShot : shot ∈ list.shots) :
    ∃ d ∈ declared, d.Shows tree shot := by
  rcases List.mem_iff_get.mp hShot with ⟨i, rfl⟩
  have hLength := hPartitions.shots.length_eq
  have hBound : i.val <
      (declared.filter
        (DeclaredShot.isReadable tree)).length := by
    omega
  refine ⟨_, ?_,
    hPartitions.shots.get hBound i.isLt⟩
  exact List.mem_of_mem_filter (List.get_mem _ _)

/- Nothing is kept exactly if no picture can be read. -/
theorem Partitions.shots_eq_nil_iff
    {list : ShotList}
    (hPartitions : list.Partitions tree declared) :
    list.shots = [] ↔
      ∀ shot ∈ declared, shot.isReadable tree = false := by
  have hNone :
      declared.filter (DeclaredShot.isReadable tree) = [] ↔
        ∀ shot ∈ declared,
          shot.isReadable tree = false := by
    simp [List.filter_eq_nil_iff]
  have hShots := hPartitions.shots
  rw [← hNone]
  constructor
  · intro hNil
    rw [hNil] at hShots
    exact List.forall₂_nil_right_iff.mp hShots
  · intro hNil
    rw [hNil] at hShots
    exact List.forall₂_nil_left_iff.mp hShots

/- All are skipped if no picture can be read. -/
theorem partitions_nil_iff
    {skipped : List SkippedShot} :
    Partitions tree declared ⟨[], skipped⟩ ↔
      (∀ shot ∈ declared, shot.isReadable tree = false) ∧
        skipped =
          declared.map (DeclaredShot.skip tree) := by
  constructor
  · intro hPartitions
    have hNone := hPartitions.shots_eq_nil_iff.mp rfl
    refine ⟨hNone, ?_⟩
    have hSkipped := hPartitions.skipped
    rw [List.filter_eq_self.mpr] at hSkipped
    · exact hSkipped
    · intro shot hShot
      rw [hNone shot hShot]
      rfl
  · rintro ⟨hNone, rfl⟩
    constructor
    · rw [List.filter_eq_nil_iff.mpr]
      · exact .nil
      · intro shot hShot
        rw [hNone shot hShot]
        exact Bool.false_ne_true
    · rw [List.filter_eq_self.mpr]
      intro shot hShot
      rw [hNone shot hShot]
      rfl

end ShotList

namespace Scenario

variable [PictureReader]
variable {scenario : Scenario}
variable {tree : FileTree}
variable {limit : Option Nat}

/- No shot of a scenario is empty. -/
theorem not_le_zero_of_resolve
    {list : ShotList}
    {shot : Shot}
    (hResolve : scenario.resolve tree limit = .ok list)
    (hShot : shot ∈ list.shots) :
    ¬ shot.baseDuration ≤ 0.0 := by
  rcases resolve_eq_ok_iff_partitions.mp hResolve with
    ⟨_, hPartitions⟩
  rcases hPartitions.exists_shows hShot with
    ⟨declared, _, hShows⟩
  exact hShows.lasts

/- When a scenario can be resolved. -/
theorem exists_resolve_eq_ok_iff :
    (∃ list, scenario.resolve tree limit = .ok list) ↔
      (∀ shot ∈ scenario.declaredShots limit,
          ∃ result, shot.resolve tree = .ok result) ∧
        ∃ shot ∈ scenario.declaredShots limit,
          shot.isReadable tree = true := by
  rw [← Outcome.exists_mapM_eq_ok_iff]
  constructor
  · rintro ⟨list, hResolve⟩
    rcases resolve_eq_ok_iff_partitions.mp hResolve with
      ⟨hShots, hPartitions⟩
    rw [Ne, hPartitions.shots_eq_nil_iff] at hShots
    rw [resolve_eq_ok_iff, resolveFrom_recordsWithin]
      at hResolve
    rcases hResolve with ⟨resolved, hResolved, _⟩
    refine ⟨⟨resolved, hResolved⟩, ?_⟩
    simpa using hShots
  · rintro ⟨⟨resolved, hResolved⟩, shot, hShot, hReadable⟩
    have hPartitions :=
      DeclaredShot.partitions_of_forall₂
        (Outcome.mapM_eq_ok_iff.mp hResolved)
    refine ⟨_, resolve_eq_ok_iff_partitions.mpr
      ⟨?_, hPartitions⟩⟩
    rw [Ne, hPartitions.shots_eq_nil_iff]
    intro hNone
    rw [hNone shot hShot] at hReadable
    exact Bool.false_ne_true hReadable

/- How resolving a scenario fails, shot by shot. -/
theorem resolve_eq_error_iff_firstFails
    {e : Error} :
    scenario.resolve tree limit = .error e ↔
      DeclaredShot.FirstFails tree
          (scenario.declaredShots limit) e ∨
        (∀ shot ∈ scenario.declaredShots limit,
          shot.isReadable tree = false) ∧
          e =
            .validation
              (.noValidShots
                (scenario.declaredShots limit).length) := by
  rw [resolve_eq_error_iff,
    DeclaredShot.mapM_resolve_eq_error_iff]
  refine or_congr_right ?_
  simp only [ShotList.partitions_nil_iff]
  constructor
  · rintro ⟨skipped, ⟨hNone, rfl⟩, rfl⟩
    exact ⟨hNone, by rw [List.length_map]⟩
  · rintro ⟨hNone, rfl⟩
    exact ⟨_, ⟨hNone, rfl⟩, by rw [List.length_map]⟩

/-
  Resolving a scenario divides the declared shots by their
  pictures.  It fails exactly if a shot with a picture has
  something wrong, and then as the first such shot says, or
  else if no picture can be read.
-/
theorem resolve_partitions
    (scenario : Scenario)
    (tree : FileTree)
    (limit : Option Nat) :
    ((∃ list, scenario.resolve tree limit = .ok list) ↔
        (∀ shot ∈ scenario.declaredShots limit,
          shot.isReadable tree = true →
            ∀ e, ¬ shot.Fails e) ∧
          ∃ shot ∈ scenario.declaredShots limit,
            shot.isReadable tree = true) ∧
      (∀ e,
        scenario.resolve tree limit = .error e ↔
          DeclaredShot.FirstFails tree
              (scenario.declaredShots limit) e ∨
            (∀ shot ∈ scenario.declaredShots limit,
              shot.isReadable tree = false) ∧
              e =
                .validation
                  (.noValidShots
                    (scenario.declaredShots
                      limit).length)) ∧
      ∀ list,
        scenario.resolve tree limit = .ok list ↔
          list.shots ≠ [] ∧
            list.Partitions tree
              (scenario.declaredShots limit) := by
  refine ⟨?_, ?_, fun list => resolve_eq_ok_iff_partitions⟩
  · rw [exists_resolve_eq_ok_iff]
    simp only [DeclaredShot.exists_resolve_eq_ok_iff]
  · intro e
    exact resolve_eq_error_iff_firstFails

end Scenario

end Slideshow

import Mathlib.Data.List.Sort
import Mathlib.Data.String.Basic
import Slideshow.Proofs.Numeral
import Slideshow.Proofs.Outcome
import Slideshow.Proofs.Picture.Plan
import Slideshow.Proofs.Text.Separator

/-
  This file proves what a selection of shots stands for, and
  which pictures are planned for it.

  The ids of a selection are ascending, so that a selection
  is the set of its ids (`Selection.IsAscending.ext`).  A
  comma joins two selections to their union.  A range of
  numbers selects their ids, which are different for
  different numbers (`padId_write_injective`), so that a
  record is selected exactly if its number is in the range.

  Key definitions include:
    * `Selection.IsAscending`
    * `Selection.IsJoined`
    * `ShotRecord.isNumberedFrom`

  Main results include:
    * `Selection.isAscending_ofIds`
    * `Selection.isJoined_read`
    * `Selection.read_range`
    * `Selection.contains_shotId`
    * `Selection.promptedRecords_range`
    * `Selection.read_comma_and_plan_range`
-/

namespace Slideshow

------------------------------------------------------------
-- Repetitions
------------------------------------------------------------

section Repetitions

variable {α : Type}
variable [BEq α] [LawfulBEq α]
variable {a b : α}
variable {xs : List α}

omit [LawfulBEq α] in
/- Elements that are kept come before the others. -/
theorem eraseReps_loop
    (acc : List α) :
    List.eraseRepsBy.loop (· == ·) a xs acc =
      acc.reverse ++ (a :: xs).eraseReps := by
  show _ = acc.reverse ++ List.eraseRepsBy.loop _ a xs []
  induction xs generalizing a acc with
  | nil =>
      simp [List.eraseRepsBy.loop]
  | cons b xs ih =>
      rw [List.eraseRepsBy.loop, List.eraseRepsBy.loop]
      cases a == b with
      | true =>
          exact ih acc
      | false =>
          dsimp only
          rw [ih (a :: acc), ih [a], List.reverse_cons,
            List.append_assoc]
          rfl

theorem eraseReps_cons_self :
    (a :: a :: xs).eraseReps = (a :: xs).eraseReps := by
  show List.eraseRepsBy.loop (· == ·) a (a :: xs) [] = _
  rw [List.eraseRepsBy.loop, beq_self_eq_true]
  rfl

theorem eraseReps_cons_of_ne
    (hNe : a ≠ b) :
    (a :: b :: xs).eraseReps =
      a :: (b :: xs).eraseReps := by
  show List.eraseRepsBy.loop (· == ·) a (b :: xs) [] = _
  rw [List.eraseRepsBy.loop, beq_false_of_ne hNe]
  exact eraseReps_loop [a]

/- All elements are kept. -/
theorem mem_eraseReps :
    b ∈ xs.eraseReps ↔ b ∈ xs := by
  induction xs with
  | nil =>
      rfl
  | cons x xs ih =>
      cases xs with
      | nil =>
          rfl
      | cons y ys =>
          by_cases hSame : x = y
          · rw [hSame, eraseReps_cons_self, ih]
            simp
          · rw [eraseReps_cons_of_ne hSame, List.mem_cons,
              ih, ← List.mem_cons]

/- Without repetitions an ordered list is ascending. -/
theorem pairwise_lt_eraseReps
    [LinearOrder α]
    (hOrdered : xs.Pairwise (· ≤ ·)) :
    xs.eraseReps.Pairwise (· < ·) := by
  induction xs with
  | nil =>
      exact .nil
  | cons x xs ih =>
      rw [List.pairwise_cons] at hOrdered
      cases xs with
      | nil =>
          exact List.pairwise_singleton _ _
      | cons y ys =>
          by_cases hSame : x = y
          · rw [hSame, eraseReps_cons_self]
            exact ih hOrdered.2
          · rw [eraseReps_cons_of_ne hSame,
              List.pairwise_cons]
            refine ⟨?_, ih hOrdered.2⟩
            intro z hz
            have hFirst : x < y :=
              lt_of_le_of_ne
                (hOrdered.1 y List.mem_cons_self) hSame
            rcases List.mem_cons.mp (mem_eraseReps.mp hz)
              with rfl | hRest
            · exact hFirst
            · exact hFirst.trans_le
                (List.rel_of_pairwise_cons hOrdered.2 hRest)

end Repetitions

------------------------------------------------------------
-- Selections
------------------------------------------------------------

namespace Selection

/- The ids are in order, and each is there once. -/
def IsAscending (selection : Selection) : Prop :=
  selection.ids.Pairwise (· < ·)

/- Ascending selections are the sets of their ids. -/
theorem IsAscending.ext
    {s t : Selection}
    (hs : s.IsAscending)
    (ht : t.IsAscending)
    (hIds : ∀ id, id ∈ s.ids ↔ id ∈ t.ids) :
    s = t := by
  have hEq : s.ids = t.ids := hs.eq_of_mem_iff ht hIds
  cases s
  cases t
  exact congrArg mk hEq

theorem mem_ofIds
    {ids : List String}
    {id : String} :
    id ∈ (ofIds ids).ids ↔ id ∈ ids := by
  rw [ofIds, mem_eraseReps]
  exact (List.mergeSort_perm ids inOrder).mem_iff

/- The selection of some ids is ascending. -/
theorem isAscending_ofIds (ids : List String) :
    (ofIds ids).IsAscending := by
  have hOrder (a b : String) :
      inOrder a b = true ↔ a ≤ b := by
    rw [inOrder, Bool.not_eq_true', decide_eq_false_iff_not,
      not_lt]
  apply pairwise_lt_eraseReps
  apply List.Pairwise.imp (fun {a b} => (hOrder a b).mp)
  apply List.pairwise_mergeSort
  · intro a b c
    rw [hOrder, hOrder, hOrder]
    exact le_trans
  · intro a b
    rw [Bool.or_eq_true, hOrder, hOrder]
    exact le_total a b

theorem contains_iff
    {selection : Selection}
    {id : String} :
    selection.contains id = true ↔ id ∈ selection.ids :=
  List.contains_iff_mem

------------------------------------------------------------
-- Commas
------------------------------------------------------------

/-
  What two texts with a comma between them select: all that
  one of them selects, unless the first fails, or else the
  second.
-/
structure IsJoined
    (first second whole :
      Except FormatFault Selection) : Prop where
  ok :
    ∀ s t, first = .ok s → second = .ok t →
      ∃ u,
        whole = .ok u ∧ u.IsAscending ∧
          ∀ id, id ∈ u.ids ↔ id ∈ s.ids ∨ id ∈ t.ids
  error_first :
    ∀ fault, first = .error fault →
      whole = .error fault
  error_second :
    ∀ s fault, first = .ok s → second = .error fault →
      whole = .error fault

theorem parts_comma (a b : String) :
    parts (a ++ "," ++ b) = parts a ++ parts b := by
  have hSplit :
      Text.split ',' (a ++ "," ++ b) =
        Text.split ',' a ++ Text.split ',' b :=
    Text.split_append ',' a b
  rw [parts, hSplit, List.map_append, List.filter_append,
    parts, parts]

theorem read_eq_ok_iff
    {text : String}
    {selection : Selection} :
    read text = .ok selection ↔
      ∃ ids,
        (parts text).mapM readPart = .ok ids ∧
          selection = ofIds ids.flatten := by
  rw [read, Outcome.bind_eq_ok_iff]
  simp only [pure, Except.pure, Except.ok.injEq, eq_comm]

theorem read_eq_error_iff
    {text : String}
    {fault : FormatFault} :
    read text = .error fault ↔
      (parts text).mapM readPart = .error fault := by
  rw [read, Outcome.bind_eq_error_iff]
  simp [pure, Except.pure]

/- A comma joins selections. -/
theorem isJoined_read (a b : String) :
    IsJoined (read a) (read b) (read (a ++ "," ++ b)) := by
  have hParts :
      (parts (a ++ "," ++ b)).mapM readPart = do
        let before ← (parts a).mapM readPart
        let after ← (parts b).mapM readPart
        return before ++ after := by
    rw [parts_comma, List.mapM_append]
  refine ⟨?_, ?_, ?_⟩
  · intro s t hFirst hSecond
    rcases read_eq_ok_iff.mp hFirst with
      ⟨before, hBefore, rfl⟩
    rcases read_eq_ok_iff.mp hSecond with
      ⟨after, hAfter, rfl⟩
    rw [hBefore, hAfter] at hParts
    refine ⟨_, read_eq_ok_iff.mpr ⟨_, hParts, rfl⟩,
      isAscending_ofIds _, ?_⟩
    intro id
    rw [mem_ofIds, mem_ofIds, mem_ofIds,
      List.flatten_append, List.mem_append]
  · intro fault hFirst
    rw [read_eq_error_iff] at hFirst ⊢
    rw [hParts, hFirst]
    rfl
  · intro s fault hFirst hSecond
    rcases read_eq_ok_iff.mp hFirst with
      ⟨before, hBefore, rfl⟩
    rw [read_eq_error_iff] at hSecond ⊢
    rw [hParts, hBefore, hSecond]
    rfl

end Selection

------------------------------------------------------------
-- Ranges
------------------------------------------------------------

/- Different numbers have different ids. -/
theorem padId_write_injective
    {m n : Nat}
    (hEq : padId (Numeral.write m) =
      padId (Numeral.write n)) :
    m = n := by
  have hValue : some m = some n := by
    rw [← Numeral.value?_padStart 2 m,
      ← Numeral.value?_padStart 2 n]
    exact congrArg
      (fun id : String => Numeral.value? id.toList) hEq
  exact Option.some.inj hValue

namespace Selection

variable {A B : UInt32}

/- A range has the ids of the numbers between its bounds. -/
theorem mem_range
    {id : String} :
    id ∈ range A B ↔
      ∃ n, min A.toNat B.toNat ≤ n ∧
        n ≤ max A.toNat B.toNat ∧
          id = padId (Numeral.write n) := by
  unfold range
  rw [List.mem_map]
  constructor
  · rintro ⟨n, hMem, rfl⟩
    rw [List.mem_range'_1] at hMem
    exact ⟨n, by omega, by omega, rfl⟩
  · rintro ⟨n, hLow, hHigh, rfl⟩
    refine ⟨n, ?_, rfl⟩
    rw [List.mem_range'_1]
    omega

/- A range in words. -/
def rangeText (A B : UInt32) : String :=
  Numeral.write A.toNat ++ "-" ++ Numeral.write B.toNat

theorem rangeText_eq :
    rangeText A B =
      Numeral.writePair '-' A.toNat B.toNat :=
  rfl

/- A range is a single part. -/
theorem parts_rangeText :
    parts (rangeText A B) = [rangeText A B] := by
  rw [rangeText_eq]
  have hComma :
      ',' ∉ (Numeral.writePair '-' A.toNat
        B.toNat).toList := by
    intro hMem
    rcases Numeral.isDigit_or_eq_of_mem_writePair hMem with
      hDigit | hEq
    · exact absurd hDigit (by decide)
    · exact absurd hEq (by decide)
  have hSome :
      (Numeral.writePair '-' A.toNat B.toNat).isEmpty =
        false := by
    rw [Bool.eq_false_iff, ne_eq, String.isEmpty_iff]
    intro hNone
    have hChars :=
      Numeral.toList_writePair '-' A.toNat B.toNat
    rw [hNone] at hChars
    simp at hChars
  rw [parts, Text.split_eq_singleton_iff.mpr ⟨hComma, rfl⟩,
    List.map_singleton,
    Numeral.trim_writePair _ _ (by decide)]
  simp [hSome]

theorem readBound_write
    (part : String)
    (n : UInt32) :
    readBound part (Numeral.write n.toNat) = .ok n := by
  unfold readBound
  rw [Numeral.trim_write, Numeral.readUInt32?_write]

/- A range that is written reads back. -/
theorem readPart_rangeText :
    readPart (rangeText A B) = .ok (range A B) := by
  have hHyphen : '-' ∉ (Numeral.write A.toNat).toList := by
    intro hMem
    exact absurd (Numeral.isDigit_of_mem_write hMem)
      (by decide)
  have hSplit :
      Text.splitOnce '-' (rangeText A B) =
        some (Numeral.write A.toNat,
          Numeral.write B.toNat) := by
    rw [Text.splitOnce, rangeText_eq,
      Numeral.toList_writePair,
      Chars.splitOnce_append_cons hHyphen, Option.map_some,
      String.ofList_toList, String.ofList_toList]
  rw [readPart, hSplit]
  dsimp only
  rw [readBound_write, readBound_write]
  rfl

/- A range selects its ids. -/
theorem read_range :
    read (rangeText A B) = .ok (ofIds (range A B)) := by
  rw [read, parts_rangeText, List.mapM_cons, List.mapM_nil,
    readPart_rangeText]
  show Except.ok (ofIds [range A B].flatten) = _
  rw [List.flatten_singleton]

end Selection

------------------------------------------------------------
-- Plans
------------------------------------------------------------

/- The scene of a record is a number between two others. -/
def ShotRecord.isNumberedFrom
    (low high : Nat)
    (record : ShotRecord) : Bool :=
  match record.scene with
  | some (.number n) =>
      decide (low ≤ n.toNat ∧ n.toNat ≤ high)
  | _ => false

namespace Selection

variable {A B : UInt32}

/-
  A range selects a record with a number exactly if the
  number is in the range.
-/
theorem contains_shotId
    {record : ShotRecord}
    {n : UInt64}
    (position : Nat)
    (hScene : record.scene = some (.number n)) :
    (ofIds (range A B)).contains (record.shotId position) =
      record.isNumberedFrom (min A.toNat B.toNat)
        (max A.toNat B.toNat) := by
  have hId :
      record.shotId position =
        padId (Numeral.write n.toNat) := by
    rw [ShotRecord.shotId, ShotRecord.sceneName, hScene]
    rfl
  rw [Bool.eq_iff_iff, contains_iff, mem_ofIds, mem_range,
    hId, ShotRecord.isNumberedFrom, hScene,
    decide_eq_true_iff]
  constructor
  · rintro ⟨m, hLow, hHigh, hEq⟩
    rw [padId_write_injective hEq]
    exact ⟨hLow, hHigh⟩
  · rintro ⟨hLow, hHigh⟩
    exact ⟨n.toNat, hLow, hHigh, rfl⟩

/-
  Of records that all have numbers, a range selects those
  with a number in the range.
-/
theorem promptedRecords_range
    {scenario : Scenario}
    (hNumbers :
      ∀ record ∈ scenario.records,
        ∃ n, record.scene = some (.number n)) :
    scenario.promptedRecords (some (ofIds (range A B))) =
      scenario.records.zipIdx.filter fun (record, _) =>
        record.imagePrompt.isSome &&
          record.isNumberedFrom (min A.toNat B.toNat)
            (max A.toNat B.toNat) := by
  apply List.filter_congr
  rintro ⟨record, position⟩ hMem
  rcases hNumbers record (List.fst_mem_of_mem_zipIdx hMem)
    with ⟨n, hScene⟩
  show (_ && (ofIds (range A B)).contains _) = _
  rw [contains_shotId position hScene]

/-
  A comma joins selections, or passes the first fault on.  A
  range, in either direction, selects the ids of the numbers
  between its bounds and no others, and of a scenario whose
  records all have numbers it plans the pictures of those
  with a prompt and a number in the range, in order.
-/
theorem read_comma_and_plan_range :
    (∀ a b : String,
      IsJoined (read a) (read b) (read (a ++ "," ++ b))) ∧
    ∀ A B : UInt32,
      ∃ s,
        read (rangeText A B) = .ok s ∧ s.IsAscending ∧
          (∀ id, id ∈ s.ids ↔
            ∃ n, min A.toNat B.toNat ≤ n ∧
              n ≤ max A.toNat B.toNat ∧
                id = padId (Numeral.write n)) ∧
          ∀ (scenario : Scenario)
            (tree : FileTree)
            (aspect : AspectRatio)
            (model : String),
            (∀ record ∈ scenario.records,
              ∃ n, record.scene = some (.number n)) →
              List.Forall₂
                (fun planned (item : ShotRecord × Nat) =>
                  scenario.planRecord tree aspect model
                    (item.1.shotId item.2) item.1 =
                      some planned)
                (scenario.plan tree (some s) aspect model)
                (scenario.records.zipIdx.filter
                  fun (record, _) =>
                    record.imagePrompt.isSome &&
                      record.isNumberedFrom
                        (min A.toNat B.toNat)
                        (max A.toNat B.toNat)) := by
  refine ⟨isJoined_read, ?_⟩
  intro A B
  refine ⟨_, read_range, isAscending_ofIds _, ?_, ?_⟩
  · intro id
    rw [mem_ofIds, mem_range]
  · intro scenario tree aspect model hNumbers
    rw [← promptedRecords_range hNumbers]
    exact scenario.plan_planRecord tree _ aspect model

end Selection

/- Four records with numbers, one of them without a prompt. -/
def Scenario.withNumbers : Scenario where
  root := "film"
  records :=
    [⟨some (.number 12), none, none, none, some "A cat.",
        none⟩,
      ⟨some (.number 100), none, none, none, some "A dog.",
        none⟩,
      ⟨some (.number 3), none, none, none, none, none⟩,
      ⟨some (.number 2), none, none, none, some "A bird.",
        none⟩]

/-
  Two selections that are joined, one that is not a range,
  and a reversed range of two records.
-/
theorem Selection.read_comma_and_plan_range_withNumbers :
    (∃ s t u,
      read "7, 2" = .ok s ∧ read "4-3" = .ok t ∧
        read ("7, 2" ++ "," ++ "4-3") = .ok u ∧
        ∀ id, id ∈ u.ids ↔ id ∈ s.ids ∨ id ∈ t.ids) ∧
      read ("7, 2" ++ "," ++ "4-x") =
        .error (.shotRange "4-x") ∧
      ∃ s,
        read (rangeText 12 2) = .ok s ∧
          List.Forall₂
            (fun planned (item : ShotRecord × Nat) =>
              Scenario.withNumbers.planRecord .empty .square
                "model" (item.1.shotId item.2) item.1 =
                  some planned)
            (Scenario.withNumbers.plan .empty (some s) .square
              "model")
            [(⟨some (.number 12), none, none, none,
                some "A cat.", none⟩, 0),
              (⟨some (.number 2), none, none, none,
                some "A bird.", none⟩, 3)] := by
  have hFirst : (read "7, 2").isOk = true := by
    decide +kernel
  have hSecond : (read "4-3").isOk = true := by
    decide +kernel
  have hFault : read "4-x" = .error (.shotRange "4-x") := by
    decide +kernel
  have hNumbers :
      ∀ record ∈ Scenario.withNumbers.records,
        ∃ n, record.scene = some (.number n) := by
    simp [Scenario.withNumbers]
  rcases Outcome.exists_eq_ok_of_isOk hFirst with ⟨s, hs⟩
  rcases Outcome.exists_eq_ok_of_isOk hSecond with ⟨t, ht⟩
  rcases (read_comma_and_plan_range.1 _ _).ok s t hs ht with
    ⟨u, hu, _, hIds⟩
  rcases read_comma_and_plan_range.2 12 2 with
    ⟨range, hRange, _, _, hPlan⟩
  exact
    ⟨⟨s, t, u, hs, ht, hu, hIds⟩,
      (read_comma_and_plan_range.1 _ _).error_second s _ hs
        hFault,
      range, hRange,
      hPlan _ .empty .square "model" hNumbers⟩

end Slideshow

import Slideshow.Proofs.Outcome
import Slideshow.Scenario.Resolve

/-
  This file characterizes the steps of resolving a scenario:
  reading the range of a record, making its shot, and
  collecting shots.

  A range is tested where its record is read.  The test
  fails for ranges that are zero or negative; it lets pass
  what is not a number, and that is left to the planning of
  the camera path.

  Main results include:
    * `ShotRecord.readRange_eq_ok_iff`
    * `ShotRecord.readRange_eq_error_iff`
    * `ShotRecord.toShot_eq_ok_iff`
    * `Scenario.resolve_eq_ok_iff`
-/

namespace Slideshow

------------------------------------------------------------
-- Records
------------------------------------------------------------

namespace ShotRecord

variable {record : ShotRecord}
variable {id image : String}
variable {source : FrameSize}

/- All that reading the range of a record does. -/
theorem readRange_eq_ok_iff
    {range : TimeRange} :
    record.readRange id = .ok range ↔
      TimeRange.read (record.timing.getD defaultTiming) =
          .ok range ∧
        ¬ range.duration ≤ 0.0 := by
  unfold readRange
  simp only [Outcome.bind_eq_ok_iff,
    Outcome.mapError_eq_ok_iff, Outcome.guard_eq_ok_iff]
  constructor
  · rintro ⟨read, hRead, hLasts, hEq⟩
    cases hEq
    exact ⟨hRead, hLasts⟩
  · rintro ⟨hRead, hLasts⟩
    exact ⟨range, hRead, hLasts, rfl⟩

/- How reading the range of a record fails. -/
theorem readRange_eq_error_iff
    {e : Error} :
    record.readRange id = .error e ↔
      (∃ fault,
        TimeRange.read
            (record.timing.getD defaultTiming) =
          .error fault ∧
          e = .format (.inShot id fault)) ∨
        ∃ range : TimeRange,
          TimeRange.read
              (record.timing.getD defaultTiming) =
            .ok range ∧
            range.duration ≤ 0.0 ∧
            e =
              .format
                (.emptyShot id
                  (record.timing.getD defaultTiming)) := by
  unfold readRange
  rw [Outcome.bind_eq_error_iff]
  simp only [Outcome.mapError_eq_error_iff,
    Outcome.mapError_eq_ok_iff, Outcome.guard_eq_error_iff]
  constructor
  · rintro (⟨fault, hRead, rfl⟩ |
      ⟨range, hRead, ⟨hEmpty, rfl⟩ | ⟨_, hPure⟩⟩)
    · exact Or.inl ⟨fault, hRead, rfl⟩
    · exact Or.inr ⟨range, hRead, hEmpty, rfl⟩
    · cases hPure
  · rintro (⟨fault, hRead, rfl⟩ | ⟨range, hRead, hEmpty, rfl⟩)
    · exact Or.inl ⟨fault, hRead, rfl⟩
    · exact Or.inr ⟨range, hRead, Or.inl ⟨hEmpty, rfl⟩⟩

/- All that making the shot of a record does. -/
theorem toShot_eq_ok_iff
    {shot : Shot} :
    record.toShot id image source = .ok shot ↔
      ∃ range motion,
        record.readRange id = .ok range ∧
          record.readMotion id = .ok motion ∧
          shot = ⟨id, image, source, range, motion⟩ := by
  unfold toShot
  simp only [Outcome.bind_eq_ok_iff]
  constructor
  · rintro ⟨range, hRange, motion, hMotion, hEq⟩
    cases hEq
    exact ⟨range, motion, hRange, hMotion, rfl⟩
  · rintro ⟨range, motion, hRange, hMotion, rfl⟩
    exact ⟨range, hRange, motion, hMotion, rfl⟩

end ShotRecord

------------------------------------------------------------
-- Scenarios
------------------------------------------------------------

namespace Scenario

variable [PictureReader]
variable {scenario : Scenario}
variable {tree : FileTree}
variable {limit : Option Nat}
variable {list : ShotList}

/- All that resolving a scenario does. -/
theorem resolve_eq_ok_iff :
    scenario.resolve tree limit = .ok list ↔
      ∃ resolved,
        scenario.resolveFrom tree 0
            (scenario.recordsWithin limit) =
          .ok resolved ∧
        list.shots ≠ [] ∧
        list =
          ⟨resolved.filterMap ResolvedRecord.shot?,
            resolved.filterMap
              ResolvedRecord.skipped?⟩ := by
  unfold resolve
  rw [Outcome.bind_eq_ok_iff]
  simp only [Outcome.guard_eq_ok_iff, List.isEmpty_iff]
  constructor
  · rintro ⟨resolved, hResolved, hShots, hEq⟩
    cases hEq
    exact ⟨resolved, hResolved, hShots, rfl⟩
  · rintro ⟨resolved, hResolved, hShots, rfl⟩
    exact ⟨resolved, hResolved, hShots, rfl⟩

end Scenario

end Slideshow

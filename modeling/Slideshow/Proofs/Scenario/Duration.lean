import Slideshow.Proofs.Film
import Slideshow.Proofs.Timing

/-
  This file proves which shots of a resolved scenario last
  for a positive time between finite ends.

  An empty shot is refused by a comparison, which fails for
  what is not a number.  Ends that are out of range have no
  difference, so that a shot with such ends is kept.  It is
  the only kind that does not last: between finite ends the
  comparison is right, and clock values of moderate size have
  finite ends.

  Key definitions include:
    * `Shot.Lasts`

  Main results include:
    * `Scenario.lasts_of_resolve`
-/

namespace Slideshow

/- A shot lasts for a positive time between finite ends. -/
structure Shot.Lasts (shot : Shot) : Prop where
  start_isFinite : shot.range.start.isFinite = true
  stop_isFinite : shot.range.stop.isFinite = true
  baseDuration_pos : 0.0 < shot.baseDuration

/- Between finite ends a shot that is shown lasts. -/
theorem DeclaredShot.Shows.lasts_iff
    [PictureReader]
    {tree : FileTree}
    {declared : DeclaredShot}
    {shot : Shot}
    (hShows : declared.Shows tree shot) :
    shot.Lasts ↔
      shot.range.start.isFinite = true ∧
        shot.range.stop.isFinite = true := by
  constructor
  · intro hLasts
    exact ⟨hLasts.start_isFinite, hLasts.stop_isFinite⟩
  · rintro ⟨hStart, hStop⟩
    exact ⟨hStart, hStop,
      TimeRange.duration_pos_of_not_le hStart hStop
        hShows.lasts⟩

namespace Scenario

variable {scenario : Scenario}
variable {tree : FileTree}
variable {limit : Option Nat}
variable {list : ShotList}
variable {shot : Shot}

/-
  A shot of a resolved scenario lasts exactly if its ends
  are finite.  They are if its duration is, and if no field
  of its timing is beyond 1e304.
-/
theorem lasts_of_resolve
    [PictureReader]
    (hResolve : scenario.resolve tree limit = .ok list)
    (hShot : shot ∈ list.shots) :
    (shot.Lasts ↔
        shot.range.start.isFinite = true ∧
          shot.range.stop.isFinite = true) ∧
      (shot.baseDuration.isFinite = true → shot.Lasts) ∧
      ∃ declared ∈ scenario.declaredShots limit,
        declared.Shows tree shot ∧
          (TimeRange.isModerate declared.timing = true →
            shot.Lasts) := by
  rcases resolve_eq_ok_iff_partitions.mp hResolve with
    ⟨_, hPartitions⟩
  rcases hPartitions.exists_shows hShot with
    ⟨declared, hDeclared, hShows⟩
  refine ⟨hShows.lasts_iff, ?_, declared, hDeclared, hShows,
    ?_⟩
  · intro hFinite
    rcases Binary.isFinite_of_isFinite_sub hFinite with
      ⟨hStop, hStart⟩
    exact hShows.lasts_iff.mpr ⟨hStart, hStop⟩
  · intro hModerate
    exact hShows.lasts_iff.mpr
      (TimeRange.isFinite_of_isModerate hModerate
        hShows.read_eq)

/- The pictures are PNG files in what follows. -/
attribute [local instance] Png.reader

/- The shots of a scenario without any timing last. -/
theorem lasts_of_resolve_gapped :
    ∃ list shot,
      Scenario.gapped.resolve FileTree.gapped none =
          .ok list ∧
        shot ∈ list.shots ∧ shot.Lasts := by
  have hOk :
      (Scenario.gapped.resolve FileTree.gapped none).isOk =
        true := by
    decide +kernel
  have hModerate :
      ∀ declared ∈ Scenario.gapped.declaredShots none,
        TimeRange.isModerate declared.timing = true := by
    decide +kernel
  rcases Outcome.exists_eq_ok_of_isOk hOk with
    ⟨list, hResolve⟩
  rcases List.exists_mem_of_ne_nil _
      (resolve_eq_ok_iff_partitions.mp hResolve).1 with
    ⟨shot, hShot⟩
  rcases lasts_of_resolve hResolve hShot with
    ⟨_, _, declared, hDeclared, _, hLasts⟩
  exact ⟨list, shot, hResolve, hShot,
    hLasts (hModerate declared hDeclared)⟩

/- A record whose hours are out of range in seconds. -/
def endless : Scenario where
  root := "film"
  records :=
    [⟨none, some "1e308:0:0 - 1e308:0:0", some "a.png", none,
      none, none⟩]

/- Its shot is kept, without finite ends or a duration. -/
theorem resolve_endless :
    ∃ list shot,
      endless.resolve FileTree.gapped none = .ok list ∧
        shot ∈ list.shots ∧
        shot.range.start.isFinite = false ∧
        shot.range.stop.isFinite = false ∧
        ¬ 0.0 < shot.baseDuration := by
  have hFlags :
      (endless.resolve FileTree.gapped none).toOption.map
          (fun list => list.shots.map fun shot =>
            (shot.range.start.isFinite,
              shot.range.stop.isFinite,
              decide (0.0 < shot.baseDuration))) =
        some [(false, false, false)] := by
    decide +kernel
  cases hResolve : endless.resolve FileTree.gapped none with
  | error e =>
      rw [hResolve] at hFlags
      cases hFlags
  | ok list =>
      rw [hResolve] at hFlags
      rcases List.map_eq_cons_iff.mp (Option.some.inj hFlags)
        with ⟨shot, rest, hShots, hShot, _⟩
      simp only [Prod.mk.injEq, decide_eq_false_iff_not]
        at hShot
      have hMem : shot ∈ list.shots := by
        rw [hShots]
        exact List.mem_cons_self
      exact ⟨list, shot, rfl, hMem, hShot⟩

end Scenario

end Slideshow

import Slideshow.Proofs.Outcome
import Slideshow.Timeline

/-
  This file proves that what is drawn is one of the things
  to choose from, whatever words the source yields: the move
  of a shot and the style of a transition.  If there is
  something to choose from, something is drawn.

  Key definitions include:
    * `Shot.Allows`
    * `TransitionPolicy.Allows`

  Main results include:
    * `WordSource.mem_of_choose`
    * `Shot.allows_of_chooseEffect`
    * `TransitionPolicy.allows_of_pick`
    * `WordSource.index_lt`
    * `TransitionPolicy.exists_pick`
-/

namespace Slideshow

variable {σ : Type}
variable [WordSource σ]
variable {s s' : σ}

/- An element that is chosen is one of the list. -/
theorem WordSource.mem_of_choose
    {α : Type}
    {items : List α}
    {item : α}
    (hChoose : choose items s = (some item, s')) :
    item ∈ items := by
  unfold choose at hChoose
  split at hChoose
  · cases hChoose
  · exact List.mem_of_getElem? (Prod.mk.inj hChoose).1

/-
  A move suits a shot under the settings: it is the one that
  the shot names, or, if it names none, one of those to
  choose from.
-/
def Shot.Allows
    (shot : Shot)
    (config : Config)
    (effect : MotionEffect) : Prop :=
  match shot.motion with
  | some pinned => effect = pinned
  | none => effect ∈ config.effects

/- The move that is chosen for a shot suits it. -/
theorem Shot.allows_of_chooseEffect
    {shot : Shot}
    {config : Config}
    {effect : MotionEffect}
    (hChoose :
      shot.chooseEffect config s = .ok (effect, s')) :
    shot.Allows config effect := by
  unfold chooseEffect at hChoose
  unfold Allows
  cases hMotion : shot.motion with
  | some pinned =>
      rw [hMotion] at hChoose
      cases hChoose
      rfl
  | none =>
      simp only [hMotion] at hChoose
      split at hChoose
      · rename_i hDrawn
        cases hChoose
        exact WordSource.mem_of_choose hDrawn
      · cases hChoose

/-
  A style suits a policy: the blur-dissolve fades, and a
  random policy has a list of styles.
-/
def TransitionPolicy.Allows
    (policy : TransitionPolicy)
    (style : TransitionStyle) : Prop :=
  match policy with
  | .blurDissolve => style = .fade
  | .random styles => style ∈ styles

/- The style that is picked under a policy suits it. -/
theorem TransitionPolicy.allows_of_pick
    {policy : TransitionPolicy}
    {style : TransitionStyle}
    (hPick : policy.pick s = .ok (style, s')) :
    policy.Allows style := by
  cases policy with
  | blurDissolve =>
      cases hPick
      rfl
  | random styles =>
      simp only [pick] at hPick
      split at hPick
      · rename_i hDrawn
        cases hPick
        exact WordSource.mem_of_choose hDrawn
      · cases hPick

------------------------------------------------------------
-- Something to Choose
------------------------------------------------------------

/-
  A drawn index is in range.  The carry never leads out of
  it: where the high half is the last index, the low half is
  too small for one.
-/
theorem WordSource.index_lt
    {n : Nat}
    (s : σ)
    (hn : 0 < n) :
    (index n s).1 < n := by
  have hSize : UInt32.size = 4294967296 := rfl
  have hWord (word : UInt32) :
      word.toNat * n ≤ 4294967295 * n :=
    Nat.mul_le_mul_right n (Nat.le_pred_of_lt word.toNat_lt)
  unfold index
  simp only [hSize]
  have hFirst := hWord (next s).1
  split
  · split
    · show _ + 1 < n
      omega
    · show _ / 4294967296 < n
      omega
  · show _ / 4294967296 < n
    omega

/- An element can be chosen if there is one. -/
theorem WordSource.exists_choose
    {α : Type}
    {items : List α}
    (s : σ)
    (hItems : items ≠ []) :
    ∃ item s', choose items s = (some item, s') := by
  have hLength := List.length_pos_iff.mpr hItems
  have hIndex := index_lt s hLength
  refine ⟨items[(index items.length s).1],
    (index items.length s).2, ?_⟩
  rw [choose, if_neg (by simpa using hItems),
    ← List.getElem?_eq_getElem hIndex]

/- A usable policy picks a style from any source. -/
theorem TransitionPolicy.exists_pick
    {policy : TransitionPolicy}
    (s : σ)
    (hValid : policy.validate = .ok ()) :
    ∃ style s', policy.pick s = .ok (style, s') := by
  cases policy with
  | blurDissolve => exact ⟨.fade, s, rfl⟩
  | random styles =>
      have hStyles : styles ≠ [] := by
        rintro rfl
        cases hValid
      rcases WordSource.exists_choose s hStyles with
        ⟨style, s', hChoose⟩
      refine ⟨style, s', ?_⟩
      rw [pick, hChoose]

theorem Config.validate_transitions
    {config : Config}
    (hValid : config.validate = .ok ()) :
    config.transitions.validate = .ok () := by
  unfold validate at hValid
  simp only [Outcome.bind_eq_ok_iff,
    Outcome.guard_eq_ok_iff,
    Outcome.mapError_eq_ok_iff] at hValid
  rcases hValid with ⟨_, _, _, _, _, _, _, ⟨⟩, hPolicy, _⟩
  exact hPolicy

end Slideshow

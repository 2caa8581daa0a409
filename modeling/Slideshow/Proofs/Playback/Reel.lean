import Slideshow.Proofs.Graph.Unfolding

/-
  This file defines when each clip of a film begins.

  Only transitions move clips in time.  What the graph of a
  timeline makes, without all its other stages, is a reel of
  clips that dissolve into one another, and the reel depends
  on the transitions alone.

  Times may be any kind of number.

  Key definitions include:
    * `Reel`
    * `Reel.start?`
    * `Reel.ofTransitions`
    * `StreamTerm.reel?`

  Main results include:
    * `Reel.start?_ofTransitions_succ`
    * `Timeline.reel?_filmUpTo?`
    * `Timeline.exists_reel_of_build`
-/

namespace Slideshow

------------------------------------------------------------
-- Reels
------------------------------------------------------------

/- Clips that dissolve into one another. -/
inductive Reel (τ : Type) where
| clip (i : Nat)
| dissolve (t : Transition τ) (first second : Reel τ)

namespace Reel

variable {τ : Type}

/-
  When a clip begins.  A dissolve leaves the times of its
  first stream as they are and plays its second stream from
  its offset on.
-/
def start?
    [Add τ] [OfNat τ 0] :
    Reel τ → Nat → Option τ
  | .clip i, j => if i = j then some 0 else none
  | .dissolve t first second, j =>
      match first.start? j with
      | some start => some start
      | none => (second.start? j).map (t.offset + ·)

/- Go on with a reel, one clip for each transition. -/
def extend
    (reel : Reel τ)
    (next : Nat) :
    List (Transition τ) → Reel τ
  | [] => reel
  | t :: rest =>
      extend (.dissolve t reel (.clip next)) (next + 1) rest

/- The reel of the clips before and after transitions. -/
def ofTransitions
    (transitions : List (Transition τ)) : Reel τ :=
  extend (.clip 0) 1 transitions

variable {reel : Reel τ}
variable {next : Nat}
variable {transitions : List (Transition τ)}

/- A reel goes on with the last transition in the end. -/
theorem extend_concat
    (t : Transition τ) :
    extend reel next (transitions ++ [t]) =
      .dissolve t (extend reel next transitions)
        (.clip (next + transitions.length)) := by
  induction transitions generalizing reel next with
  | nil =>
      rfl
  | cons first rest ih =>
      rw [List.cons_append, extend, extend, ih,
        List.length_cons, Nat.add_assoc,
        Nat.add_comm 1 rest.length]

variable [Add τ] [OfNat τ 0]

/- What a reel goes on with does not move its clips. -/
theorem start?_extend_of_some
    {j : Nat}
    {start : τ}
    (hStart : reel.start? j = some start) :
    (extend reel next transitions).start? j =
      some start := by
  induction transitions generalizing reel next with
  | nil =>
      exact hStart
  | cons t rest ih =>
      apply ih
      simp only [start?, hStart]

/-
  The clips that a reel goes on with begin at the offsets of
  the transitions.
-/
theorem start?_extend_next
    {k : Nat}
    {t : Transition τ}
    (hLast : ∀ j, next ≤ j → reel.start? j = none)
    (hGet : transitions[k]? = some t) :
    (extend reel next transitions).start? (next + k) =
      some (t.offset + 0) := by
  induction transitions generalizing reel next k with
  | nil =>
      cases hGet
  | cons first rest ih =>
      cases k with
      | zero =>
          cases hGet
          have hStart :
              (dissolve t reel (.clip next)).start? next =
                some (t.offset + 0) := by
            simp [start?, hLast next (Nat.le_refl next)]
          rw [extend]
          exact start?_extend_of_some hStart
      | succ k =>
          have hNext :
              ∀ j, next + 1 ≤ j →
                (dissolve first reel (.clip next)).start?
                  j = none := by
            intro j hj
            have hOther : ¬ next = j := by omega
            simp [start?, hLast j (by omega), hOther]
          have hStart := ih hNext hGet
          rw [Nat.add_assoc, Nat.add_comm 1 k] at hStart
          exact hStart

theorem start?_ofTransitions_zero :
    (ofTransitions transitions).start? 0 = some 0 :=
  start?_extend_of_some rfl

/- The clip behind a transition begins at its offset. -/
theorem start?_ofTransitions_succ
    {k : Nat}
    {t : Transition τ}
    (hGet : transitions[k]? = some t) :
    (ofTransitions transitions).start? (k + 1) =
      some (t.offset + 0) := by
  have hFirst :
      ∀ j, 1 ≤ j →
        (clip 0 : Reel τ).start? j = none := by
    intro j hj
    have hOther : ¬ 0 = j := by omega
    simp [start?, hOther]
  rw [ofTransitions, Nat.add_comm]
  exact start?_extend_next hFirst hGet

end Reel

------------------------------------------------------------
-- The Reel of a Graph
------------------------------------------------------------

/-
  The reel of a stream.  Stages with one source keep the
  times of the source.
-/
def StreamTerm.reel? :
    StreamTerm → Option (Reel Float)
  | .image i => some (.clip i)
  | .staged (.transition t) [first, second] => do
      let first ← first.reel?
      let second ← second.reel?
      return .dissolve t first second
  | .staged _ [source] => source.reel?
  | .staged _ _ => none

theorem StreamTerm.reel?_behind
    (term : StreamTerm)
    (ramp? : Option (BlurRamp Float)) :
    (term.behind ramp?).reel? = term.reel? := by
  cases ramp? with
  | none =>
      rfl
  | some ramp =>
      simp [behind, reel?]

theorem Clip.reel?_term
    (clip : Clip)
    (config : Config)
    (working : FrameSize)
    (i : Nat) :
    (clip.term config working i).reel? =
      some (.clip i) := by
  rw [Clip.term, StreamTerm.reel?_behind,
    StreamTerm.reel?_behind]
  simp [StreamTerm.reel?]

namespace Timeline

/- The film up to a clip is the reel of its transitions. -/
theorem reel?_filmUpTo?
    {timeline : Timeline}
    {config : Config}
    {working : FrameSize}
    {k : Nat}
    {film : StreamTerm}
    (hFilm :
      timeline.filmUpTo? config working k = some film) :
    film.reel? =
      some
        (.ofTransitions (timeline.transitions.take k)) := by
  induction k generalizing film with
  | zero =>
      simp only [filmUpTo?, Option.bind_eq_bind,
        Option.bind_eq_some_iff] at hFilm
      rcases hFilm with ⟨clip, _, hEq⟩
      cases hEq
      rw [Clip.reel?_term]
      rfl
  | succ k ih =>
      simp only [filmUpTo?, Option.bind_eq_bind,
        Option.bind_eq_some_iff] at hFilm
      rcases hFilm with
        ⟨before, hBefore, t, hTransition, clip, _, hEq⟩
      cases hEq
      have hLength :
          (timeline.transitions.take k).length = k := by
        rw [List.length_take]
        have hBound :=
          (List.getElem?_eq_some_iff.mp hTransition).1
        omega
      rw [List.take_add_one, hTransition,
        Option.toList_some, Reel.ofTransitions,
        Reel.extend_concat, hLength, Nat.add_comm 1 k]
      simp [StreamTerm.reel?, ih hBefore, Clip.reel?_term,
        Reel.ofTransitions]

/-
  What the graph of a timeline makes in the end is the reel
  of all transitions.
-/
theorem exists_reel_of_build
    {σ : Type}
    [WordSource σ]
    {shots : List Shot}
    {config : Config}
    {s s' : σ}
    {timeline : Timeline}
    (hBuild : build shots config s = .ok (timeline, s')) :
    ∃ graph whole used,
      timeline.assemble config = .ok graph ∧
        graph.Unfolds [.label graph.output] [whole] used ∧
        whole.reel? =
          some (.ofTransitions timeline.transitions) := by
  rcases boundaries_of_build hBuild with
    ⟨hCount, hBoundaries⟩
  rcases workingSize_of_build hBuild with
    ⟨working, hWorking⟩
  have hNodup :
      (timeline.transitions.map
        Transition.boundary).Nodup := by
    rw [hBoundaries]
    exact List.nodup_range
  have hValid :=
    (timeline.validate_graph_eq_ok_iff config working hCount
      (isSided_of_build hBuild)).mpr hNodup
  rcases timeline.graph_makes config working hCount with
    ⟨film, hFilm, used, hUnfolds, _⟩
  refine ⟨timeline.graph config working, _, used, ?_,
    hUnfolds, ?_⟩
  · exact (timeline.assemble_eq_ok_iff config).mpr
      ⟨hCount, working, hWorking, rfl, hValid⟩
  · have hAll : timeline.clips.length - 1 =
        timeline.transitions.length := by
      omega
    have hReel := reel?_filmUpTo? hFilm
    rw [hAll, List.take_length] at hReel
    simp [StreamTerm.reel?, hReel]

end Timeline

end Slideshow

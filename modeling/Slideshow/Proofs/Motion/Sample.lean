import Slideshow.Motion.Viewport
import Slideshow.Proofs.Expr.Value
import Slideshow.Proofs.Motion.Path

/-
  This file proves that the window of a planned camera path
  is never missing a zoom.

  The zoom of a frame is computed while no zoom is bound, and
  the offsets refer to it afterwards.  This order is right
  since the zoom of no camera move refers to itself.

  Main results include:
    * `MotionEffect.references_zoom_camera`
    * `MotionPath.failsAs_sample`
    * `Expr.eval_isDetermined_and_sample_isBound`
-/

namespace Slideshow

/- The zoom of a camera move does not refer to itself. -/
theorem MotionEffect.references_zoom_camera
    (effect : MotionEffect)
    (bounds : ZoomBounds Float) :
    (effect.camera bounds).zoom.references .zoom =
      false := by
  cases effect <;> rfl

/-
  A path whose zoom does not refer to itself has a zoom at
  every frame, bound or failed for another reason.
-/
theorem MotionPath.failsAs_sample
    {path : MotionPath}
    (frame : UInt64)
    (source : FrameSize)
    (hZoom : path.camera.zoom.references .zoom = false) :
    Outcome.FailsAs (· ≠ .unboundZoom)
      (path.sample frame source) := by
  unfold sample
  apply Outcome.FailsAs.bind
  · apply Expr.failsAs_eval
    intro hOccurs
    rw [hZoom] at hOccurs
    cases hOccurs
  · intro zoom
    -- from here on the zoom is bound
    refine (Expr.failsAs_eval fun _ => rfl).bind fun x => ?_
    refine (Expr.failsAs_eval fun _ => rfl).bind fun y => ?_
    exact Outcome.failsAs_ok _

/-
  The value of an expression is determined by what the
  variables that occur in it stand for.  It is finite, and
  every part has a finite value, too.  The zoom of a planned
  path does not refer to itself, so that sampling the path
  never misses it.
-/
theorem Expr.eval_isDetermined_and_sample_isBound :
    (∀ (e : Expr Float) (env env' : Env Float),
        env.AgreesOn env' e →
          ∀ x, e.eval env = .ok x ↔ e.eval env' = .ok x) ∧
      (∀ (e : Expr Float) (env : Env Float) (x : Float),
        e.eval env = .ok x →
          x.isFinite = true ∧
            ∀ part : Expr Float, part.IsPartOf e →
              ∃ y,
                part.eval env = .ok y ∧
                  y.isFinite = true) ∧
      ∀ effect seconds rate bounds path,
        MotionPath.plan effect seconds rate bounds =
            .ok path →
          path.camera.zoom.references .zoom = false ∧
            ∀ frame source,
              path.sample frame source ≠
                .error .unboundZoom := by
  refine ⟨?_, ?_, ?_⟩
  · intro e env env' hAgrees x
    exact ⟨eval_eq_ok_of_agreesOn hAgrees,
      eval_eq_ok_of_agreesOn hAgrees.symm⟩
  · intro e env x hEval
    exact ⟨isFinite_of_eval hEval,
      fun part hPart => exists_eval_of_isPartOf hPart hEval⟩
  · intro effect seconds rate bounds path hPlan
    rcases MotionPath.plan_eq_ok_iff.mp hPlan with
      ⟨-, -, -, -, rfl⟩
    have hZoom := effect.references_zoom_camera bounds
    refine ⟨hZoom, ?_⟩
    intro frame source hError
    exact MotionPath.failsAs_sample frame source hZoom _
      hError rfl

/- The middle of a clip of a wide frame, without a zoom. -/
def Env.halfway : Env Float :=
  ⟨0.5, 1024.0, 768.0, none⟩

/-
  The growing zoom is the same over another frame and under
  another zoom, a part of it is finite, and it can be used.
-/
theorem Expr.eval_isDetermined_and_sample_isBound_growing :
    let zoom := MotionEffect.zoomUp ZoomBounds.standard
    let other : Env Float :=
      { Env.halfway with
        inputWidth := 8.0
        zoom := some 2.0 }
    ∃ x path,
      Env.halfway.AgreesOn other zoom ∧
        zoom.eval Env.halfway = .ok x ∧
        zoom.eval other = .ok x ∧
        x.isFinite = true ∧
        (∃ y,
          (const 1.1 - const 1.0 : Expr Float).eval
              Env.halfway =
            .ok y ∧ y.isFinite = true) ∧
        MotionPath.plan .zoomIn 2.0 ⟨24, 1⟩
            ZoomBounds.standard =
          .ok path ∧
        path.camera.zoom.references .zoom = false ∧
        path.sample 7 ⟨1024, 768⟩ ≠
          .error .unboundZoom := by
  intro zoom other
  have hOk : (zoom.eval Env.halfway).isOk = true := by
    decide +kernel
  have hPlanOk :
      (MotionPath.plan .zoomIn 2.0 ⟨24, 1⟩
        ZoomBounds.standard).isOk = true := by
    decide +kernel
  have hAgrees : Env.halfway.AgreesOn other zoom := by
    intro v hOccurs
    cases v with
    | progress =>
        show some Env.halfway.progress =
          some Env.halfway.progress
        rfl
    | _ =>
        exact absurd hOccurs Bool.false_ne_true
  rcases Outcome.exists_eq_ok_of_isOk hOk with ⟨x, hEval⟩
  rcases Outcome.exists_eq_ok_of_isOk hPlanOk with
    ⟨path, hPlan⟩
  rcases eval_isDetermined_and_sample_isBound with
    ⟨hDetermined, hFinite, hBound⟩
  rcases hFinite zoom Env.halfway x hEval with
    ⟨hx, hParts⟩
  rcases hBound _ _ _ _ path hPlan with ⟨hZoom, hSample⟩
  exact ⟨x, path, hAgrees, hEval,
    (hDetermined zoom Env.halfway other hAgrees x).mp hEval,
    hx, hParts _ (.right (.left .whole)), hPlan, hZoom,
    hSample 7 ⟨1024, 768⟩⟩

end Slideshow

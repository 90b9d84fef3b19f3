import CurveFit.Proofs.Model.Slots
import Mathlib

/-!
# Slopes of the built-in curves

Over the real numbers, with the true exponential, the row that a built-in model writes into its slots
holds the partial derivatives of its curve (`ModelKind.slopes_hasSlope`): slot by slot in the order
of the parameters, and whatever the slots held before.  Lifetimes and widths must not be zero; their
sign does not matter.
-/

namespace CurveFit

/-- The real numbers have the true exponential. -/
noncomputable instance : ExpScalar ℝ where
  exp := Real.exp

/-- At the point `x`, the curve of a model has the slope `s` along parameter `i`: there is a curve for
every value of that parameter, and `s` is the derivative at the value it has. -/
def Model.HasSlope (m : Model ℝ) (values : List ℝ) (x : ℝ) (i : ℕ) (s : ℝ) : Prop :=
  ∃ g : ℝ → ℝ, (∀ t, (m.curve (values.set i t)).map (· x) = .ok (g t)) ∧
    ∃ v, values[i]? = some v ∧ HasDerivAt g s v

/-- One value for each parameter of a kind, and no lifetime or width is zero.  These are the
parameters that are to be positive. -/
def ModelKind.Regular (kind : ModelKind) (values : List ℝ) : Prop :=
  List.Forall₂ (fun p v => p.2 = .positive → v ≠ 0) kind.signature values

/-! ## One parameter at a time -/

section Derivatives

variable {a c s v x d tau mu sigma : ℝ}

theorem hasDerivAt_factor : HasDerivAt (fun t => t * s) s v := by
  have h := (hasDerivAt_id' v).mul_const s
  rwa [one_mul] at h

theorem hasDerivAt_offset : HasDerivAt (fun t => c + t) 1 v :=
  (hasDerivAt_id' v).const_add c

/-- A decay along its lifetime. -/
theorem hasDerivAt_lifetime (h : tau ≠ 0) :
    HasDerivAt (fun t => a * Real.exp (-x / t)) (a * Real.exp (-x / tau) * x / (tau * tau)) tau := by
  have hexponent : HasDerivAt (fun t => -x / t) (x / (tau * tau)) tau := by
    refine ((hasDerivAt_const tau (-x)).div (hasDerivAt_id' tau) h).congr_deriv ?_
    rw [zero_mul, zero_sub, mul_one, neg_neg, pow_two]
  refine (hexponent.exp.const_mul a).congr_deriv ?_
  ring

/-- A peak along its center. -/
theorem hasDerivAt_center :
    HasDerivAt (fun t => a * Real.exp (-(x - t) * (x - t) / (2 * sigma * sigma)))
      (a * Real.exp (-(x - mu) * (x - mu) / (2 * (sigma * sigma))) * (x - mu) / (sigma * sigma))
      mu := by
  have hdistance : HasDerivAt (fun t => x - t) (-1) mu := (hasDerivAt_id' mu).const_sub x
  have hsquare : HasDerivAt (fun t => -(x - t) * (x - t)) (2 * (x - mu)) mu := by
    refine (hdistance.fun_neg.fun_mul hdistance).congr_deriv ?_
    ring
  have hexponent : HasDerivAt (fun t => -(x - t) * (x - t) / (2 * sigma * sigma))
      ((x - mu) / (sigma * sigma)) mu := by
    refine (hsquare.div_const _).congr_deriv ?_
    rw [mul_assoc 2, mul_div_mul_left _ _ two_ne_zero]
  rw [← mul_assoc 2]
  refine (hexponent.exp.const_mul a).congr_deriv ?_
  ring

/-- A peak along its width. -/
theorem hasDerivAt_width (h : sigma ≠ 0) :
    HasDerivAt (fun t => a * Real.exp (-d * d / (2 * t * t)))
      (a * Real.exp (-d * d / (2 * (sigma * sigma))) * d * d / (sigma * sigma * sigma)) sigma := by
  have hsquare : HasDerivAt (fun t => 2 * t * t) (4 * sigma) sigma := by
    refine (((hasDerivAt_id' sigma).const_mul 2).fun_mul (hasDerivAt_id' sigma)).congr_deriv ?_
    ring
  have hsquare_ne : 2 * sigma * sigma ≠ 0 := mul_ne_zero (mul_ne_zero two_ne_zero h) h
  have hexponent : HasDerivAt (fun t => -d * d / (2 * t * t)) (d * d / (sigma * sigma * sigma))
      sigma := by
    refine ((hasDerivAt_const sigma (-d * d)).fun_div hsquare hsquare_ne).congr_deriv ?_
    field_simp
    ring
  rw [← mul_assoc 2]
  refine (hexponent.exp.const_mul a).congr_deriv ?_
  ring

end Derivatives

/-! ## The built-in kinds -/

variable {kind : ModelKind} {m : Model ℝ} {values : List ℝ}

/-- A slope, from the curves for all values of one parameter. -/
theorem Model.hasSlope_of_curve? (hm : m.curve? = kind.curve?) {x s v : ℝ} {i : ℕ} {f : ℝ → ℝ → ℝ}
    (hv : values[i]? = some v) (hf : ∀ t, kind.curve? (values.set i t) = some (f t))
    (hs : HasDerivAt (fun t => f t x) s v) : m.HasSlope values x i s := by
  refine ⟨fun t => f t x, fun t => ?_, v, hv, hs⟩
  unfold Model.curve
  rw [hm, hf]
  rfl

/-- The slopes of a kind are those of its curve, parameter by parameter. -/
theorem ModelKind.Regular.exists_slopes (hvalues : kind.Regular values)
    (hm : m.curve? = kind.curve?) :
    ∃ d, kind.slopes? values = some d ∧
      ∀ x i (hi : i < (d x).length), m.HasSlope values x i (d x)[i] := by
  unfold Regular at hvalues
  cases kind with
  | linear =>
    match values, hvalues with
    | [slope, intercept], .cons _ (.cons _ .nil) =>
      refine ⟨_, rfl, fun x i hi => ?_⟩
      match i, hi with
      | 0, _ =>
        exact Model.hasSlope_of_curve? hm rfl (fun _ => rfl) (hasDerivAt_factor.add_const intercept)
      | 1, _ => exact Model.hasSlope_of_curve? hm rfl (fun _ => rfl) hasDerivAt_offset
  | exponential =>
    match values, hvalues with
    | [amplitude, lifetime, offset], .cons _ (.cons hlifetime (.cons _ .nil)) =>
      refine ⟨_, rfl, fun x i hi => ?_⟩
      match i, hi with
      | 0, _ =>
        exact Model.hasSlope_of_curve? hm rfl (fun _ => rfl) (hasDerivAt_factor.add_const offset)
      | 1, _ =>
        exact Model.hasSlope_of_curve? hm rfl (fun _ => rfl)
          ((hasDerivAt_lifetime (hlifetime rfl)).add_const offset)
      | 2, _ => exact Model.hasSlope_of_curve? hm rfl (fun _ => rfl) hasDerivAt_offset
  | gaussian =>
    match values, hvalues with
    | [amplitude, center, width, offset], .cons _ (.cons _ (.cons hwidth (.cons _ .nil))) =>
      refine ⟨_, rfl, fun x i hi => ?_⟩
      match i, hi with
      | 0, _ =>
        refine Model.hasSlope_of_curve? hm rfl (fun _ => rfl)
          ((hasDerivAt_factor.add_const offset).congr_deriv ?_)
        -- the curve and the slopes multiply the denominator in different orders
        rw [mul_assoc 2]
        rfl
      | 1, _ =>
        exact Model.hasSlope_of_curve? hm rfl (fun _ => rfl) (hasDerivAt_center.add_const offset)
      | 2, _ =>
        exact Model.hasSlope_of_curve? hm rfl (fun _ => rfl)
          ((hasDerivAt_width (hwidth rfl)).add_const offset)
      | 3, _ => exact Model.hasSlope_of_curve? hm rfl (fun _ => rfl) hasDerivAt_offset
  | biExponential =>
    match values, hvalues with
    | [fast, fastLifetime, slow, slowLifetime, offset],
        .cons _ (.cons hfast (.cons _ (.cons hslow (.cons _ .nil)))) =>
      refine ⟨_, rfl, fun x i hi => ?_⟩
      match i, hi with
      | 0, _ =>
        exact Model.hasSlope_of_curve? hm rfl (fun _ => rfl)
          ((hasDerivAt_factor.add_const _).add_const offset)
      | 1, _ =>
        exact Model.hasSlope_of_curve? hm rfl (fun _ => rfl)
          (((hasDerivAt_lifetime (hfast rfl)).add_const _).add_const offset)
      | 2, _ =>
        exact Model.hasSlope_of_curve? hm rfl (fun _ => rfl)
          ((hasDerivAt_factor.const_add _).add_const offset)
      | 3, _ =>
        exact Model.hasSlope_of_curve? hm rfl (fun _ => rfl)
          (((hasDerivAt_lifetime (hslow rfl)).const_add _).add_const offset)
      | 4, _ => exact Model.hasSlope_of_curve? hm rfl (fun _ => rfl) hasDerivAt_offset

/-- **Slopes.**  A built-in model writes one number into each of its slots: the partial derivative of
its curve along the parameter of that slot. -/
theorem ModelKind.slopes_hasSlope {initial buffer : List ℝ} (hm : kind.model initial = .ok m)
    (hvalues : kind.Regular values) (hbuffer : buffer.length = m.parameterCount) (x : ℝ) :
    ∃ d row, m.slopes values = .ok d ∧ writeRow buffer (d x) = .ok row ∧
      row.length = m.parameterCount ∧
        ∀ i (hi : i < row.length), m.HasSlope values x i row[i] := by
  obtain ⟨hcount, hcurve, hslopes⟩ := ModelKind.functions_of_model hm
  obtain ⟨d, hd, hrow⟩ := hvalues.exists_slopes hcurve
  have hd' : m.slopes? values = some d := by rw [hslopes, hd]
  have hlength : (d x).length = m.parameterCount :=
    (ModelKind.length_slopes hd x).trans hcount.symm
  refine ⟨d, d x, Model.slopes_of_some hd', ?_, hlength, hrow x⟩
  unfold writeRow
  rw [if_pos (hlength.trans hbuffer.symm).le, overwrite_of_length_eq (hlength.trans hbuffer.symm)]

/-- A peak with a negative width, at a point beside its center. -/
theorem ModelKind.slopes_hasSlope_negative_width :
    ∃ m : Model ℝ, ModelKind.gaussian.model [1, 0, 1, 0] = .ok m ∧
      ModelKind.gaussian.Regular [3, 5, -2, 1 / 2] ∧ [0, 0, 0, 0].length = m.parameterCount ∧
        ∃ d row, m.slopes [3, 5, -2, 1 / 2] = .ok d ∧ writeRow [0, 0, 0, 0] (d 4) = .ok row ∧
          row.length = m.parameterCount ∧
            ∀ i (hi : i < row.length), m.HasSlope [3, 5, -2, 1 / 2] 4 i row[i] := by
  have hvalues : ModelKind.gaussian.Regular [3, 5, -2, 1 / 2] :=
    .cons nofun (.cons nofun (.cons (fun _ => by norm_num) (.cons nofun .nil)))
  have hm : ModelKind.gaussian.model ([1, 0, 1, 0] : List ℝ) = .ok _ := rfl
  exact ⟨_, hm, hvalues, rfl, ModelKind.slopes_hasSlope hm hvalues rfl 4⟩

end CurveFit

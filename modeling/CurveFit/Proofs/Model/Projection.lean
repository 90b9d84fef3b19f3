import CurveFit.Model.Basic
import CurveFit.Proofs.Binary64.Whole

/-!
# Projections onto constraints

A projection is made once (`Constraint.project_project`), and what it leads to is allowed if it is
finite (`Constraint.admits_project`); this takes in both zeros, the values that are no numbers and
those too large for a fraction.  Parameters are `Settled` when each of them is such a value.
-/

namespace CurveFit

open Binary64

namespace Constraint

variable {v : Float}

/-- **A projection** is made once. -/
theorem project_project (c : Constraint) (v : Float) : c.project (c.project v) = c.project v := by
  cases c with
  | none => rfl
  | positive =>
    show (if (if v ≤ 0 then (1e-10 : Float) else v) ≤ 0 then 1e-10 else _) = _
    by_cases hv : v ≤ 0
    · have hfloor : ¬ (1e-10 : Float) ≤ 0 := by decide +kernel
      rw [if_pos hv, if_neg hfloor]
    · rw [if_neg hv, if_neg hv]
  | nonNegative =>
    show (if 0 < (if 0 < v then v else 0) then (if 0 < v then v else 0) else 0) =
      if 0 < v then v else 0
    by_cases hv : 0 < v
    · rw [if_pos hv, if_pos hv]
    · rw [if_neg hv, if_neg (Binary64.lt_irrefl 0)]
  | integer => exact roundWhole_roundWhole v

/-- What a projection leads to is allowed, if it is a finite number. -/
theorem admits_project (c : Constraint) (h : (c.project v).isFinite) : c.admits (c.project v) := by
  cases c with
  | none => rfl
  | positive =>
    change (if v ≤ 0 then (1e-10 : Float) else v).isFinite at h
    show decide (0.0 < if v ≤ 0 then (1e-10 : Float) else v) = true
    rw [decide_eq_true_iff]
    by_cases hv : v ≤ 0
    · rw [if_pos hv]
      decide +kernel
    · rw [if_neg hv] at h ⊢
      exact lt_of_not_le (isNaN_of_isFinite h) (by decide +kernel) hv
  | nonNegative =>
    show decide (0.0 ≤ if 0 < v then v else 0) = true
    rw [decide_eq_true_iff]
    by_cases hv : 0 < v
    · rw [if_pos hv]
      exact Binary64.le_of_lt hv
    · rw [if_neg hv]
      decide +kernel
  | integer => exact isWhole_roundWhole h

/-- A value that its constraint leaves alone, and allows if it is finite. -/
structure Settles (c : Constraint) (v : Float) : Prop where
  project : c.project v = v
  admits : v.isFinite → c.admits v

theorem settles_project (c : Constraint) (v : Float) : c.Settles (c.project v) :=
  ⟨c.project_project v, c.admits_project⟩

end Constraint

/-- Parameters that their constraints leave alone, and allow as far as they are finite. -/
def Model.Settled (m : Model Float) (values : List Float) : Prop :=
  List.Forall₂ (fun p v => p.constraint.Settles v) m.parameters values

theorem Model.settled_project (m : Model Float) {values : List Float}
    (h : values.length = m.parameterCount) : m.Settled (m.project values) := by
  obtain ⟨parameters, _, _⟩ := m
  change values.length = parameters.length at h
  show List.Forall₂ _ parameters (List.zipWith (fun p v => p.constraint.project v) parameters values)
  induction parameters generalizing values with
  | nil => exact .nil
  | cons p parameters ih =>
    cases values with
    | nil => cases h
    | cons v values => exact .cons (p.constraint.settles_project v) (ih (Nat.succ.inj h))

end CurveFit

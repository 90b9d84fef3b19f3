import CurveFit.Model.Basic

/-!
# Further curves

Small models with any number of parameters `p0`, `p1`, … and constraints of choice: polynomials,
and curves whose derivatives vanish, saturate or have a pole.
-/

namespace CurveFit

/-- A model with numbered parameters; constraints that are not given are `none`. -/
def Model.numbered {α : Type} (initial : List α) (constraints : List Constraint)
    (curve? : List α → Option (α → α)) (slopes? : List α → Option (α → List α)) : Model α :=
  { parameters := initial.mapIdx fun i v => ⟨s!"p{i}", v, (constraints[i]?).getD .none⟩
    curve?, slopes? }

section Polynomial

variable {α : Type} [OfNat α 0] [OfNat α 1] [Add α] [Mul α]

/-- The value of a polynomial, coefficients from the constant one on, by Horner's rule. -/
def horner (coefficients : List α) (x : α) : α :=
  coefficients.foldr (fun c acc => acc * x + c) 0

/-- The first `n` powers of `x` times `t`. -/
def powers (x : α) : Nat → α → List α
  | 0, _ => []
  | n + 1, t => t :: powers x n (t * x)

/-- A polynomial with the parameters as coefficients. -/
def Model.polynomial (initial : List α) (constraints : List Constraint) : Model α :=
  .numbered initial constraints (fun p => some (horner p))
    (fun _ => some fun x => powers x initial.length 1)

end Polynomial

/-- The constant square root of the first parameter. -/
def Model.squareRoot (initial : List Float) (constraints : List Constraint) : Model Float :=
  .numbered initial constraints
    (fun p => p.head?.map fun p0 _ => p0.sqrt)
    (fun p => p.head?.map fun p0 _ => [1.0 / (2.0 * p0.sqrt)])

/-- A constant that saturates at one as the first parameter grows. -/
def Model.saturated (initial : List Float) (constraints : List Constraint) : Model Float :=
  .numbered initial constraints
    (fun p => p.head?.map fun p0 _ => p0 / (1.0 + p0 * p0).sqrt)
    (fun p => p.head?.map fun p0 _ =>
      let s := (1.0 + p0 * p0).sqrt
      [1.0 / (s * s * s)])

/-- A line through the origin with a second parameter that has no effect. -/
def Model.inert (initial : List Float) (constraints : List Constraint) : Model Float :=
  .numbered initial constraints
    (fun p => p.head?.map fun p0 x => p0 * x)
    (fun _ => some fun x => [x, 0.0])

/-- A hyperbola with its pole at minus the second parameter. -/
def Model.rational (initial : List Float) (constraints : List Constraint) : Model Float :=
  .numbered initial constraints
    (fun p => match p with
      | p0 :: p1 :: _ => some fun x => p0 / (x + p1)
      | _ => none)
    (fun p => match p with
      | p0 :: p1 :: _ => some fun x =>
        let q := x + p1
        [1.0 / q, (-p0) / (q * q)]
      | _ => none)

end CurveFit

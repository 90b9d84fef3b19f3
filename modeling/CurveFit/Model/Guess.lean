import CurveFit.Model.Library

/-!
# Starting points estimated from data

Rough parameter values for the built-in models, from the first and last points and the extremes of
the observations.  A line goes through the two end points; lifetimes and widths are fixed fractions
of the covered range, which counts as at least the distance from one to the next number.  The peak
is looked for among bit patterns, where NaNs have a place too.
-/

namespace CurveFit

open Binary64

/-- The bits of values that are computed from a curve and from what cannot be a NaN: where the curve
is a NaN, that NaN is handed on. -/
def ModelKind.observe (kind : ModelKind) (values : List Bits) (x y : List Float) : List Bits :=
  match kind.curve? values with
  | some f =>
    List.zipWith (fun a b => if b.isNaN then (f (.computed a)).handOn b else .computed b) x y
  | none => y.map .computed

/-- The first and the last point of a dataset. -/
structure Ends (α : Type) where
  firstX : α
  firstY : α
  lastX : α
  lastY : α

/-- The end points of a dataset whose two lists are equally long and not empty. -/
def Ends.of {α : Type} (x y : List α) : Except FitError (Ends α) :=
  if x.length = y.length then
    match x.head?, y.head?, x.getLast?, y.getLast? with
    | some x0, some y0, some x1, some y1 => .ok ⟨x0, y0, x1, y1⟩
    | _, _, _, _ => .error .emptyDataset
  else .error (.lengthMismatch x.length y.length)

/-- Slope and intercept of the line through the end points; level if they stand above each
other. -/
def Ends.line {α : Type} [OfNat α 0] [Sub α] [Mul α] [Div α] [BEq α] (e : Ends α) : List α :=
  let slope := if e.lastX != e.firstX then (e.lastY - e.firstY) / (e.lastX - e.firstX) else 0
  [slope, e.firstY - slope * e.firstX]

/-- The width of the covered range, never below the distance from one to the next number. -/
def Ends.span (e : Ends Float) : Float := greatest (e.lastX - e.firstX).abs epsilon

/-- The index of the greatest value in the total order, the last one if there are several. -/
def peakIndex (y : List Bits) : Nat :=
  let step (best : Nat × Option Int) (entry : Bits × Nat) :=
    let key := entry.1.totalKey
    if best.2.all (· ≤ key) then (entry.2, some key) else best
  (y.zipIdx.foldl step (0, none)).1

/-- A rough starting point for a kind. -/
def initialGuess (kind : ModelKind) (x : List Float) (y : List Bits) :
    Except FitError (List Float) := do
  let values := y.map (·.value)
  let e ← Ends.of x values
  let low := values.foldl least infinity
  let high := values.foldl greatest (-infinity)
  pure <| match kind with
    | .linear => e.line
    | .exponential => [e.firstY - e.lastY, e.span / 3.0, e.lastY]
    | .gaussian => [high - low, x.getD (peakIndex y) e.firstX, e.span / 6.0, low]
    | .biExponential =>
      let half := 0.5 * (e.firstY - e.lastY)
      [half, e.span / 10.0, half, e.span / 2.0, e.lastY]

/-- The model of a kind that starts from the estimate. -/
def ModelKind.guess (kind : ModelKind) (x : List Float) (y : List Bits) :
    Except FitError (Model Float) := do
  let values ← initialGuess kind x y
  kind.model values

end CurveFit

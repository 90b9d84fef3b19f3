import CurveFit.Model.Basic
import CurveFit.Random.Generator

/-!
# Synthetic data

A model's curve on an even grid with normal noise added, and families of such series whose
parameters are scaled by random factors.  Everything random comes from one generator started from
the seed, so equal specifications give equal data.
-/

namespace CurveFit

open Binary64 CurveFit.Random

/-- The grid, the noise and the seed of a dataset. -/
structure SampleSpec where
  points : Nat
  xMin : Float
  xMax : Float
  /-- The standard deviation of the noise; zero gives the curve itself. -/
  noiseSigma : Float
  seed : Nat
deriving DecidableEq

/-- The specification that holds when nothing else is said. -/
def SampleSpec.default : SampleSpec :=
  { points := 1000, xMin := 0.0, xMax := 10.0, noiseSigma := 0.01, seed := 42 }

/-- The extent of a dataset. -/
structure SampleStats where
  points : Nat
  xMin : Float
  xMax : Float
  yMin : Float
  yMax : Float
deriving DecidableEq

/-- A dataset with the curve it was made from. -/
structure SampleData where
  x : List Float
  y : List Float
  baseline : List Float
  stats : SampleStats

/-- Several series over one grid, and the parameters of each. -/
structure SeriesFamily where
  x : List Float
  series : List (List Float)
  truths : List (List Float)

namespace SampleSpec

/-- Refuses a specification without points, with the wrong number of parameters, with a range that
is not finite and ascending, or with unusable noise. -/
def validate (spec : SampleSpec) (model : Model Float) (params : List Float) :
    Except FitError Unit :=
  if spec.points = 0 then .error .emptyDataset
  else if params.length ≠ model.parameterCount then
    .error (.parameterCount model.parameterCount params.length)
  else if !(spec.xMin.isFinite && spec.xMax.isFinite && decide (spec.xMin < spec.xMax)) then
    .error (.invalidSettings (.sampleRange spec.xMin spec.xMax))
  else if !(spec.noiseSigma.isFinite && decide (0.0 ≤ spec.noiseSigma)) then
    .error (.invalidSettings (.noiseSigma spec.noiseSigma))
  else .ok ()

/-- The grid: the lower end alone for a single point, else equal steps from it. -/
def grid (spec : SampleSpec) : List Float :=
  if spec.points = 1 then [spec.xMin]
  else
    let step := (spec.xMax - spec.xMin) / Float.ofNat (spec.points - 1)
    (List.range spec.points).map fun i => spec.xMin + step * Float.ofNat i

end SampleSpec

section Draws

variable (g : Generator)

/-- Values with noise added to each; without noise nothing is drawn. -/
def addNoise (sigma : Float) (baseline : List Float) (state : g.State) : List Float × g.State :=
  if sigma == 0.0 then (baseline, state)
  else
    let (ys, state) := baseline.foldl
      (fun (acc : List Float × g.State) b =>
        let (z, state) := g.normal acc.2
        ((b + (0.0 + sigma * z)) :: acc.1, state))
      ([], state)
    (ys.reverse, state)

/-- Parameters each scaled by a factor within `spread` of one and moved onto its constraint. -/
def scaleParameters (spread : Float) :
    List (Parameter Float) → List Float → g.State → List Float × g.State
  | p :: ps, v :: vs, state =>
    let (u, state) := g.symmetric state
    let (rest, state) := scaleParameters spread ps vs state
    (p.constraint.project (v * (1.0 + spread * u)) :: rest, state)
  | _, _, state => ([], state)

/-- `count` series, each with its own parameters, drawn one after the other. -/
def drawSeries (model : Model Float) (params x : List Float) (sigma spread : Float) :
    Nat → g.State → Except Fault (List (List Float × List Float))
  | 0, _ => .ok []
  | count + 1, state => do
    let (truth, state) := scaleParameters g spread model.parameters params state
    let baseline ← model.predict truth x
    let (y, state) := addNoise g sigma baseline state
    let rest ← drawSeries model params x sigma spread count state
    pure ((y, truth) :: rest)

/-- The extent of a dataset, unless an extreme of the observations is not finite. -/
def stats? (x y : List Float) : Option SampleStats := do
  let yMin := y.foldl least infinity
  let yMax := y.foldl greatest (-infinity)
  let xMin ← x.head?
  let xMax ← x.getLast?
  if yMin.isFinite && yMax.isFinite then some ⟨x.length, xMin, xMax, yMin, yMax⟩ else none

/-- A dataset drawn from a generator.  A number takes eight bytes. -/
def generateWith (model : Model Float) (params : List Float) (spec : SampleSpec) :
    Except Failure SampleData := do
  orRefused (spec.validate model params)
  orFaulted (checkCapacity spec.points 8)
  let x := spec.grid
  let baseline ← orFaulted (model.predict params x)
  let (y, _) := addNoise g spec.noiseSigma baseline (g.ofSeed spec.seed.toUInt64)
  match stats? x y with
  | some stats => pure ⟨x, y, baseline, stats⟩
  | none => throw (.refused (.invalidSettings .nonFiniteSample))

/-- A family of series drawn from a generator.  A number takes eight bytes, a list of the family
twenty-four. -/
def generateFamilyWith (model : Model Float) (params : List Float) (spec : SampleSpec)
    (count : Nat) (spread : Float) : Except Failure SeriesFamily := do
  orRefused (spec.validate model params)
  if !(spread.isFinite && decide (0.0 ≤ spread) && decide (spread < 1.0)) then
    throw (.refused (.invalidSettings (.spread spread)))
  orFaulted (checkCapacity spec.points 8)
  orFaulted (checkCapacity count 24)
  let x := spec.grid
  let drawn ← orFaulted
    (drawSeries g model params x spec.noiseSigma spread count (g.ofSeed spec.seed.toUInt64))
  pure ⟨x, drawn.map (·.1), drawn.map (·.2)⟩

end Draws

/-- A dataset. -/
def generate : Model Float → List Float → SampleSpec → Except Failure SampleData :=
  generateWith chacha

/-- A family of series. -/
def generateFamily :
    Model Float → List Float → SampleSpec → Nat → Float → Except Failure SeriesFamily :=
  generateFamilyWith chacha

end CurveFit

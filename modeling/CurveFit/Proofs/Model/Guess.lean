import CurveFit.Model.Guess
import CurveFit.Proofs.Binary64.Special
import CurveFit.Proofs.Steps

/-!
# Starting points that can be used

An estimate is made for every dataset with as many observations as points, and at least one; what the
numbers are does not matter (`Ends.of_cases`).  It has a value for each parameter of its kind, and the
lifetimes and widths among them are fractions of a width that is never below the distance from one to
the next number (`Ends.epsilon_le_span`), so they are positive even where the ends are NaNs or
infinite, and the model of the kind can start from them (`initialGuess_usable`).
-/

namespace CurveFit

open Binary64

/-! ## The ends of a dataset -/

namespace Ends

section Lists

variable {α : Type} {x y : List α} {e : Ends α}

/-- The ends are those of both lists. -/
structure Spans (e : Ends α) (x y : List α) : Prop where
  length_eq : x.length = y.length
  firstX : x.head? = some e.firstX
  firstY : y.head? = some e.firstY
  lastX : x.getLast? = some e.lastX
  lastY : y.getLast? = some e.lastY

/-- Lists of one length have ends unless they are empty. -/
theorem of_cases (x y : List α) :
    x.length ≠ y.length ∧ Ends.of x y = .error (.lengthMismatch x.length y.length) ∨
      x = [] ∧ y = [] ∧ Ends.of x y = .error .emptyDataset ∨
      x ≠ [] ∧ ∃ e, Ends.of x y = .ok e ∧ e.Spans x y := by
  by_cases hlength : x.length = y.length
  · cases x with
    | nil =>
      obtain rfl := List.length_eq_zero_iff.mp hlength.symm
      exact .inr (.inl ⟨rfl, rfl, rfl⟩)
    | cons x₀ x =>
      cases y with
      | nil => cases hlength
      | cons y₀ y =>
        have hx := List.getLast?_eq_some_getLast (List.cons_ne_nil x₀ x)
        have hy := List.getLast?_eq_some_getLast (List.cons_ne_nil y₀ y)
        refine .inr (.inr ⟨List.cons_ne_nil x₀ x, ⟨x₀, y₀, _, _⟩, ?_, hlength, rfl, rfl, hx, hy⟩)
        unfold Ends.of
        rw [if_pos hlength, hx, hy]
        rfl
  · exact .inl ⟨hlength, if_neg hlength⟩

theorem of_eq_error_iff {err : FitError} : Ends.of x y = .error err ↔
    x.length ≠ y.length ∧ err = .lengthMismatch x.length y.length ∨
      x = [] ∧ y = [] ∧ err = .emptyDataset := by
  rcases of_cases x y with ⟨hlength, h⟩ | ⟨rfl, rfl, h⟩ | ⟨hx, e, h, hspans⟩
  · rw [h]
    constructor
    · rintro ⟨⟩
      exact .inl ⟨hlength, rfl⟩
    · rintro (⟨-, rfl⟩ | ⟨rfl, rfl, -⟩)
      · rfl
      · exact absurd rfl hlength
  · rw [h]
    constructor
    · rintro ⟨⟩
      exact .inr ⟨rfl, rfl, rfl⟩
    · rintro (⟨hlength, -⟩ | ⟨-, -, rfl⟩)
      · exact absurd rfl hlength
      · rfl
  · rw [h]
    refine iff_of_false nofun ?_
    rintro (⟨hlength, -⟩ | ⟨rfl, -⟩)
    · exact hlength hspans.length_eq
    · exact hx rfl

end Lists

/-- **A line** through points with two different ends is found, in exact arithmetic. -/
theorem line_eq {K : Type} [Field K] [DecidableEq K] {x : List K} {slope intercept : K} {e : Ends K}
    (h : e.Spans x (x.map fun v => slope * v + intercept)) (hends : e.firstX ≠ e.lastX) :
    e.line = [slope, intercept] := by
  have hfirst : e.firstY = slope * e.firstX + intercept := by
    have hhead := h.firstY
    rw [List.head?_map, h.firstX] at hhead
    exact (Option.some.inj hhead).symm
  have hlast : e.lastY = slope * e.lastX + intercept := by
    have hgetLast := h.lastY
    rw [List.getLast?_map, h.lastX] at hgetLast
    exact (Option.some.inj hgetLast).symm
  have hwidth : e.lastX - e.firstX ≠ 0 := sub_ne_zero.mpr hends.symm
  have hslope : (e.lastY - e.firstY) / (e.lastX - e.firstX) = slope := by
    rw [hfirst, hlast, div_eq_iff hwidth]
    ring
  unfold line
  rw [if_pos (bne_iff_ne.mpr hends.symm), hslope, hfirst]
  show [slope, slope * e.firstX + intercept - slope * e.firstX] = [slope, intercept]
  rw [add_sub_cancel_left]

/-! ## Widths -/

/-- The width of a range has a floor, whatever its ends are. -/
theorem epsilon_le_span (e : Ends Float) : epsilon ≤ e.span := by
  unfold span greatest
  split
  · rename_i habove
    exact le_of_lt habove
  · exact le_refl (by decide)

/-- A fraction of the width is positive. -/
theorem span_div_pos (e : Ends Float) {c : Float} (hc : c.isFinite) (hpos : 0 < value c)
    (h : 0 < epsilon / c) : 0 < e.span / c := by
  have hle := e.epsilon_le_span
  have hepsilon : epsilon.isFinite := by decide
  by_cases hspan : e.span.isFinite
  · have hquotients : epsilon / c ≤ e.span / c :=
      (div_isRounded hepsilon hc hpos.ne').mono (div_isRounded hspan hc hpos.ne')
        (div_le_div_of_nonneg_right (value_mono hle) hpos.le)
    exact pos_of_pos_of_le h hquotients
  · exact ((isInfinity_of_le hepsilon hle hspan).div hpos hc).lt (by decide)

end Ends

/-! ## The peak -/

/-- The peak is one of the observations. -/
theorem peakIndex_lt {y : List Bits} (hy : y ≠ []) : peakIndex y < y.length := by
  unfold peakIndex
  refine List.foldlRecOn (motive := fun best : ℕ × Option ℤ => best.1 < y.length) y.zipIdx _
    (List.length_pos_iff.mpr hy) fun best hbest entry hentry => ?_
  show (if _ then (entry.2, some entry.1.totalKey) else best).1 < y.length
  split
  · obtain ⟨-, hindex, -⟩ := List.mem_zipIdx hentry
    simpa using hindex
  · exact hbest

/-! ## Models that start from an estimate -/

variable {kind : ModelKind} {x : List Float} {y : List Bits}

/-- A model of a kind that starts from given values: these are its starting values, its parameters have
the names and constraints of the kind, and the constraints allow the values. -/
structure ModelKind.StartsFrom (kind : ModelKind) (values : List Float) (model : Model Float) :
    Prop where
  built : kind.model values = .ok model
  initialValues : model.initialValues = values
  signature : model.parameters.map (fun p => (p.name, p.constraint)) = kind.signature
  admits : ∀ p ∈ model.parameters, p.constraint.admits p.initial
  positive : ∀ p ∈ model.parameters, p.constraint = .positive → 0 < p.initial

theorem Constraint.admits_positive_iff {v : Float} : Constraint.positive.admits v ↔ 0 < v :=
  decide_eq_true_iff

/-- The parameters of a signature with values that it allows. -/
theorem startingParameters {signature : List (String × Constraint)} {values : List Float}
    (h : List.Forall₂ (fun entry v => entry.2.admits v) signature values) :
    ∃ parameters : List (Parameter Float),
      List.zipWith (fun entry v => ⟨entry.1, v, entry.2⟩) signature values = parameters ∧
      parameters.map (·.initial) = values ∧
      parameters.map (fun p => (p.name, p.constraint)) = signature ∧
      ∀ p ∈ parameters, p.constraint.admits p.initial := by
  induction h with
  | nil => exact ⟨[], rfl, rfl, rfl, nofun⟩
  | @cons entry v signature values hadmits _ ih =>
    obtain ⟨parameters, hparameters, hvalues, hsignature, hall⟩ := ih
    exact ⟨⟨entry.1, v, entry.2⟩ :: parameters, congrArg (_ :: ·) hparameters,
      congrArg (v :: ·) hvalues, congrArg (entry :: ·) hsignature,
      List.forall_mem_cons.mpr ⟨hadmits, hall⟩⟩

/-- Values that the constraints of a kind allow make a model of it. -/
theorem ModelKind.exists_startsFrom {values : List Float}
    (h : List.Forall₂ (fun entry v => entry.2.admits v) kind.signature values) :
    ∃ model, kind.StartsFrom values model := by
  obtain ⟨parameters, hparameters, hvalues, hsignature, hadmits⟩ := startingParameters h
  refine ⟨⟨parameters, kind.curve?, kind.slopes?⟩, ?_, hvalues, hsignature, hadmits, ?_⟩
  · rw [← hparameters]
    exact if_pos h.length_eq.symm
  · intro p hp hpositive
    have hp := hadmits p hp
    rw [hpositive] at hp
    exact Constraint.admits_positive_iff.mp hp

/-- The estimate for a dataset with ends. -/
theorem initialGuess_of_ends (kind : ModelKind) {e : Ends Float}
    (h : Ends.of x (y.map (·.value)) = .ok e) :
    ∃ values, initialGuess kind x y = .ok values ∧
      List.Forall₂ (fun entry v => entry.2.admits v) kind.signature values := by
  have hguess : initialGuess kind x y = Ends.of x (y.map (·.value)) >>= _ := rfl
  rw [h] at hguess
  have hfraction {c : Float} (hc : c.isFinite) (hpos : 0 < value c) (hfloor : 0 < epsilon / c) :
      Constraint.positive.admits (e.span / c) :=
    Constraint.admits_positive_iff.mpr (e.span_div_pos hc hpos hfloor)
  refine ⟨_, hguess, ?_⟩
  cases kind with
  | linear => exact .cons rfl (.cons rfl .nil)
  | exponential =>
    have hlifetime := hfraction (c := 3.0) (by decide +kernel) (by decide +kernel) (by decide +kernel)
    exact .cons rfl (.cons hlifetime (.cons rfl .nil))
  | gaussian =>
    have hwidth := hfraction (c := 6.0) (by decide +kernel) (by decide +kernel) (by decide +kernel)
    exact .cons rfl (.cons rfl (.cons hwidth (.cons rfl .nil)))
  | biExponential =>
    have hfast := hfraction (c := 10.0) (by decide +kernel) (by decide +kernel) (by decide +kernel)
    have hslow := hfraction (c := 2.0) (by decide +kernel) (by decide +kernel) (by decide +kernel)
    exact .cons rfl (.cons hfast (.cons rfl (.cons hslow (.cons rfl .nil))))

theorem initialGuess_eq_error_iff {err : FitError} : initialGuess kind x y = .error err ↔
    x.length ≠ y.length ∧ err = .lengthMismatch x.length y.length ∨
      x = [] ∧ y = [] ∧ err = .emptyDataset := by
  have hends : Ends.of x (y.map (·.value)) = .error err ↔ _ := Ends.of_eq_error_iff
  rw [List.length_map, List.map_eq_nil_iff] at hends
  rw [← hends]
  constructor
  · intro h
    rcases bind_eq_error_iff.mp h with h | ⟨e, -, h⟩
    · exact h
    · cases h
  · exact fun h => bind_eq_error_iff.mpr (.inl h)

/-- **Starting points.**  For a dataset with as many observations as points, and at least one, whatever
numbers they are, there is an estimate with a value for each parameter of the kind, and a model that
starts from it: the constraints of the parameters allow the values, so lifetimes and widths are
positive.  The peak that is looked up among the points is there.  Otherwise the estimate and the model
are refused, for different lengths or for an empty dataset.  In exact arithmetic the line through the
ends of points on a line is that line, if the ends differ. -/
theorem initialGuess_usable (kind : ModelKind) (x : List Float) (y : List Bits) :
    (x.length = y.length → x ≠ [] → peakIndex y < x.length ∧
      ∃ values model, initialGuess kind x y = .ok values ∧ values.length = kind.parameterCount ∧
        kind.guess x y = .ok model ∧ kind.StartsFrom values model) ∧
    (∀ err, (initialGuess kind x y = .error err ↔
        x.length ≠ y.length ∧ err = .lengthMismatch x.length y.length ∨
          x = [] ∧ y = [] ∧ err = .emptyDataset) ∧
      (kind.guess x y = .error err ↔ initialGuess kind x y = .error err)) ∧
    initialGuess .linear x y = (Ends.of x (y.map (·.value))).map Ends.line ∧
    ∀ (K : Type) [Field K] [DecidableEq K] (points : List K) (slope intercept first last : K),
      points.head? = some first → points.getLast? = some last → first ≠ last →
      (Ends.of points (points.map fun v => slope * v + intercept)).map Ends.line =
        .ok [slope, intercept] := by
  have hstarts {e : Ends Float} (h : Ends.of x (y.map (·.value)) = .ok e) :
      ∃ values model, initialGuess kind x y = .ok values ∧ values.length = kind.parameterCount ∧
        kind.guess x y = .ok model ∧ kind.StartsFrom values model := by
    obtain ⟨values, hguess, hallowed⟩ := initialGuess_of_ends kind h
    obtain ⟨model, hmodel⟩ := ModelKind.exists_startsFrom hallowed
    exact ⟨values, model, hguess, hallowed.length_eq.symm,
      bind_eq_ok_iff.mpr ⟨values, hguess, hmodel.built⟩, hmodel⟩
  refine ⟨fun hlength hx => ?usable, fun err => ⟨initialGuess_eq_error_iff, ?refused⟩, ?linear, ?line⟩
  case usable =>
    have hy : y ≠ [] := by
      rintro rfl
      exact hx (List.length_eq_zero_iff.mp hlength)
    refine ⟨hlength ▸ peakIndex_lt hy, ?_⟩
    rcases Ends.of_cases x (y.map (·.value)) with ⟨hne, -⟩ | ⟨hempty, -⟩ | ⟨-, e, he, -⟩
    · exact absurd (hlength.trans (List.length_map _).symm) hne
    · exact absurd hempty hx
    · exact hstarts he
  case refused =>
    refine ⟨fun h => ?_, fun h => bind_eq_error_iff.mpr (.inl h)⟩
    rcases bind_eq_error_iff.mp h with hrefused | ⟨values, hvalues, -⟩
    · exact hrefused
    · obtain ⟨e, he, -⟩ := bind_eq_ok_iff.mp hvalues
      obtain ⟨_, model, -, -, hmodel, -⟩ := hstarts he
      rw [h] at hmodel
      cases hmodel
  case linear =>
    show (Ends.of x (y.map (·.value)) >>= fun e => .ok e.line) = _
    cases Ends.of x (y.map (·.value)) <;> rfl
  case line =>
    intro K _ _ points slope intercept first last hfirst hlast hne
    rcases Ends.of_cases points (points.map fun v => slope * v + intercept) with
      ⟨hlength, -⟩ | ⟨rfl, -⟩ | ⟨-, e, he, hspans⟩
    · exact absurd (List.length_map _).symm hlength
    · cases hfirst
    · have hends : e.firstX ≠ e.lastX := by
        rwa [Option.some.inj (hspans.firstX.symm.trans hfirst),
          Option.some.inj (hspans.lastX.symm.trans hlast)]
      rw [he, ← Ends.line_eq hspans hends]
      rfl

/-- An infinite range with NaNs among the observations. -/
theorem initialGuess_usable_nan :
    let x := [-infinity, 0.0, infinity]
    let y := [Bits.positiveNaN, Bits.computed 1.0, Bits.negativeNaN]
    ∃ values model, initialGuess .biExponential x y = .ok values ∧ values.length = 5 ∧
      ModelKind.biExponential.guess x y = .ok model ∧
      ModelKind.biExponential.StartsFrom values model := by
  intro x y
  obtain ⟨-, values, model, hguess, hlength, hmodel, hstarts⟩ :=
    (initialGuess_usable .biExponential x y).1 rfl (List.cons_ne_nil _ _)
  exact ⟨values, model, hguess, hlength, hmodel, hstarts⟩

end CurveFit

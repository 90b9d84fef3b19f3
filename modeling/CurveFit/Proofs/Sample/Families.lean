import CurveFit.Proofs.Fit.Answers
import CurveFit.Proofs.Model.Projection
import CurveFit.Proofs.Sample.Values

/-!
# Families of different sizes

One generator is threaded through a family: for each series it gives a factor for every parameter and
then, if there is noise, one normal draw for every place of the grid.  How much is drawn depends on
nothing that was drawn, so a family begins with every smaller one (`drawSeries_take`), and the
parameters of its series are the same at every level of noise (`drawSeries_truths`).
-/

namespace CurveFit

open Binary64 CurveFit.Random

variable {g : Generator} {model : Model Float} {params x : List Float} {sigma sigma' spread : Float}
  {count m : ℕ} {state : g.State} {drawn : List (List Float × List Float)}

/-! ## One series -/

/-- Every parameter ends on its constraint. -/
theorem scaleParameters_settled (ps : List (Parameter Float)) {vs : List Float}
    (h : vs.length = ps.length) (state : g.State) :
    List.Forall₂ (fun p v => p.constraint.Settles v) ps (scaleParameters g spread ps vs state).1 := by
  induction ps generalizing vs state with
  | nil => cases vs with
    | nil => exact .nil
    | cons v vs => cases h
  | cons p ps ih => cases vs with
    | nil => cases h
    | cons v vs => exact .cons (p.constraint.settles_project _) (ih (Nat.succ.inj h) _)

/-- Noise takes one draw for each value, however strong it is. -/
theorem addNoise_state (h : ¬ sigma == 0.0) (baseline : List Float) (state : g.State) :
    (addNoise g sigma baseline state).2 = baseline.foldl (fun s _ => (g.normal s).2) state := by
  have hfold (acc : List Float × g.State) :
      (baseline.foldl (fun acc b => ((b + (0.0 + sigma * (g.normal acc.2).1)) :: acc.1,
        (g.normal acc.2).2)) acc).2 = baseline.foldl (fun s _ => (g.normal s).2) acc.2 := by
    induction baseline generalizing acc with
    | nil => rfl
    | cons b baseline ih => exact ih _
  unfold addNoise
  rw [if_neg h]
  exact hfold ([], state)

theorem Model.predict_of_curve {f : Float → Float} (h : model.curve params = .ok f) :
    model.predict params x = .ok (x.map f) := by
  unfold Model.predict
  rw [h]
  rfl

/-- A series is drawn before the others. -/
theorem drawSeries_succ_eq_ok_iff :
    drawSeries g model params x sigma spread (count + 1) state = .ok drawn ↔
      ∃ baseline rest,
        model.predict (scaleParameters g spread model.parameters params state).1 x = .ok baseline ∧
        drawSeries g model params x sigma spread count (addNoise g sigma baseline
          (scaleParameters g spread model.parameters params state).2).2 = .ok rest ∧
        drawn = ((addNoise g sigma baseline
          (scaleParameters g spread model.parameters params state).2).1,
          (scaleParameters g spread model.parameters params state).1) :: rest := by
  constructor
  · intro h
    obtain ⟨baseline, hbaseline, h⟩ := bind_eq_ok_iff.mp h
    obtain ⟨rest, hrest, h⟩ := bind_eq_ok_iff.mp h
    cases h
    exact ⟨baseline, rest, hbaseline, hrest, rfl⟩
  · rintro ⟨baseline, rest, hbaseline, hrest, rfl⟩
    exact bind_eq_ok_iff.mpr ⟨baseline, hbaseline, bind_eq_ok_iff.mpr ⟨rest, hrest, rfl⟩⟩

/-! ## All series -/

/-- **Fewer series** are the first ones of more. -/
theorem drawSeries_take (h : drawSeries g model params x sigma spread count state = .ok drawn)
    (hm : m ≤ count) :
    drawSeries g model params x sigma spread m state = .ok (drawn.take m) := by
  induction m generalizing count state drawn with
  | zero => rfl
  | succ m ih =>
    obtain ⟨count, rfl⟩ := Nat.exists_eq_add_of_lt hm
    obtain ⟨baseline, rest, hbaseline, hrest, rfl⟩ := drawSeries_succ_eq_ok_iff.mp h
    exact drawSeries_succ_eq_ok_iff.mpr ⟨baseline, _, hbaseline, ih hrest (by omega), rfl⟩

/-- The parameters of a series are settled. -/
theorem settled_of_drawSeries (hparams : params.length = model.parameterCount)
    (h : drawSeries g model params x sigma spread count state = .ok drawn) :
    ∀ d ∈ drawn, model.Settled d.2 := by
  induction count generalizing state drawn with
  | zero =>
    cases h
    exact nofun
  | succ count ih =>
    obtain ⟨baseline, rest, -, hrest, rfl⟩ := drawSeries_succ_eq_ok_iff.mp h
    exact List.forall_mem_cons.mpr ⟨scaleParameters_settled model.parameters hparams state, ih hrest⟩

/-- With a curve for every set of parameters, nothing is in the way. -/
theorem exists_drawSeries
    (hcurve : ∀ values, values.length = model.parameterCount → ∃ f, model.curve values = .ok f)
    (hparams : params.length = model.parameterCount) (count : ℕ) (state : g.State) :
    ∃ drawn, drawSeries g model params x sigma spread count state = .ok drawn := by
  induction count generalizing state with
  | zero => exact ⟨[], rfl⟩
  | succ count ih =>
    have hsettled : model.Settled (scaleParameters g spread model.parameters params state).1 :=
      scaleParameters_settled model.parameters hparams state
    obtain ⟨f, hf⟩ := hcurve _ hsettled.length_eq.symm
    obtain ⟨rest, hrest⟩ := ih _
    exact ⟨_, drawSeries_succ_eq_ok_iff.mpr ⟨x.map f, rest, Model.predict_of_curve hf, hrest, rfl⟩⟩

/-- **The parameters** of the series are the same at every level of noise. -/
theorem drawSeries_truths (hsigma : ¬ sigma == 0.0) (hsigma' : ¬ sigma' == 0.0)
    (h : drawSeries g model params x sigma spread count state = .ok drawn) :
    ∃ drawn', drawSeries g model params x sigma' spread count state = .ok drawn' ∧
      drawn'.map (·.2) = drawn.map (·.2) := by
  induction count generalizing state drawn with
  | zero =>
    cases h
    exact ⟨[], rfl, rfl⟩
  | succ count ih =>
    obtain ⟨baseline, rest, hbaseline, hrest, rfl⟩ := drawSeries_succ_eq_ok_iff.mp h
    rw [addNoise_state hsigma, ← addNoise_state hsigma'] at hrest
    obtain ⟨rest', hrest', htruths⟩ := ih hrest
    exact ⟨_, drawSeries_succ_eq_ok_iff.mpr ⟨baseline, rest', hbaseline, hrest', rfl⟩,
      congrArg (_ :: ·) htruths⟩

/-! ## Families -/

/-- The first series of a family. -/
def SeriesFamily.take (family : SeriesFamily) (m : ℕ) : SeriesFamily :=
  ⟨family.x, family.series.take m, family.truths.take m⟩

variable {spec : SampleSpec} {family : SeriesFamily}

theorem SampleSpec.length_of_valid (h : spec.validate model params = .ok ()) :
    params.length = model.parameterCount := by
  unfold SampleSpec.validate at h
  split at h
  · cases h
  · split at h
    · cases h
    · rename_i hlength
      exact not_not.mp hlength

theorem generateFamilyWith_of_valid (hvalid : spec.validate model params = .ok ())
    (hspread : UsableSpread spread) : generateFamilyWith g model params spec count spread =
      orFaulted (spec.family g model params count spread) := by
  rw [generateFamilyWith_eq, hvalid]
  exact if_pos hspread

theorem SampleSpec.family_eq_ok_iff : spec.family g model params count spread = .ok family ↔
    checkCapacity spec.points 8 = .ok () ∧ checkCapacity count 24 = .ok () ∧
      ∃ drawn, drawSeries g model params spec.grid spec.noiseSigma spread count
        (g.ofSeed spec.seed.toUInt64) = .ok drawn ∧
        family = ⟨spec.grid, drawn.map (·.1), drawn.map (·.2)⟩ := by
  constructor
  · intro h
    obtain ⟨_, hpoints, h⟩ := bind_eq_ok_iff.mp h
    obtain ⟨_, hcount, h⟩ := bind_eq_ok_iff.mp h
    obtain ⟨drawn, hdrawn, h⟩ := bind_eq_ok_iff.mp h
    cases h
    exact ⟨hpoints, hcount, drawn, hdrawn, rfl⟩
  · rintro ⟨hpoints, hcount, drawn, hdrawn, rfl⟩
    exact bind_eq_ok_iff.mpr ⟨(), hpoints, bind_eq_ok_iff.mpr ⟨(), hcount,
      bind_eq_ok_iff.mpr ⟨drawn, hdrawn, rfl⟩⟩⟩

/-- A smaller family is the beginning of a larger one. -/
theorem SampleSpec.family_take (h : spec.family g model params count spread = .ok family)
    (hm : m ≤ count) : spec.family g model params m spread = .ok (family.take m) := by
  obtain ⟨hpoints, hcount, drawn, hdrawn, rfl⟩ := family_eq_ok_iff.mp h
  have hroom : checkCapacity m 24 = .ok () := by
    unfold checkCapacity at hcount ⊢
    split at hcount
    · cases hcount
    · exact if_neg (by omega)
  refine family_eq_ok_iff.mpr ⟨hpoints, hroom, _, drawSeries_take hdrawn hm, ?_⟩
  rw [List.map_take, List.map_take]
  rfl

/-- Families that differ in the level of noise have the same parameters. -/
theorem SampleSpec.family_truths (hsigma : 0 < spec.noiseSigma) (hsigma' : 0 < sigma)
    (h : spec.family g model params count spread = .ok family) :
    ∃ other, SampleSpec.family g { spec with noiseSigma := sigma } model params count spread =
      .ok other ∧ other.truths = family.truths := by
  obtain ⟨hpoints, hcount, drawn, hdrawn, rfl⟩ := family_eq_ok_iff.mp h
  obtain ⟨drawn', hdrawn', htruths⟩ :=
    drawSeries_truths (not_beq_zero (pos_iff.mp hsigma)) (not_beq_zero (pos_iff.mp hsigma')) hdrawn
  exact ⟨_, family_eq_ok_iff.mpr ⟨hpoints, hcount, drawn', hdrawn', rfl⟩, htruths⟩

/-- With a curve for every set of parameters, only the size of a family can be in the way. -/
theorem SampleSpec.exists_family (g : Generator) (spec : SampleSpec) (spread : Float) (count : ℕ)
    (hcurve : ∀ values, values.length = model.parameterCount → ∃ f, model.curve values = .ok f)
    (hparams : params.length = model.parameterCount) :
    (maxBytes < spec.points * 8 ∨ maxBytes < count * 24) ∧
        spec.family g model params count spread = .error .capacity ∨
      ∃ family, spec.family g model params count spread = .ok family := by
  by_cases hpoints : maxBytes < spec.points * 8
  · exact .inl ⟨.inl hpoints, bind_eq_error_iff.mpr (.inl (if_pos hpoints))⟩
  by_cases hcount : maxBytes < count * 24
  · exact .inl ⟨.inr hcount, bind_eq_error_iff.mpr (.inr ⟨(), if_neg hpoints,
      bind_eq_error_iff.mpr (.inl (if_pos hcount))⟩)⟩
  obtain ⟨drawn, hdrawn⟩ := exists_drawSeries hcurve hparams count (g.ofSeed spec.seed.toUInt64)
  exact .inr ⟨_, family_eq_ok_iff.mpr ⟨if_neg hpoints, if_neg hcount, drawn, hdrawn, rfl⟩⟩

/-- **Families are nested.**  A family is handed out for every valid specification and usable spread,
unless it is too large for any memory.  It has as many series as were asked for, each with a value for
every point; the parameters of each series are settled: one for each parameter of the model, and
allowed by its constraint if it is finite.  A smaller family with the same seed consists of its first
series, and one with another level of noise has the same parameters.  This holds for every source of
random numbers and every model that has a curve wherever there is one value for each parameter. -/
theorem generateFamilyWith_nested (g : Generator) {model : Model Float} {params : List Float}
    {spec : SampleSpec} {spread : Float} (count : ℕ)
    (hcurve : ∀ values, values.length = model.parameterCount → ∃ f, model.curve values = .ok f)
    (hvalid : spec.validate model params = .ok ()) (hspread : UsableSpread spread) :
    (maxBytes < spec.points * 8 ∨ maxBytes < count * 24) ∧
        generateFamilyWith g model params spec count spread = .error (.faulted .capacity) ∨
      ∃ family, generateFamilyWith g model params spec count spread = .ok family ∧
        family.Shaped spec count ∧
        (∀ truth ∈ family.truths, truth.length = model.parameterCount ∧ model.Settled truth) ∧
        (∀ m ≤ count, generateFamilyWith g model params spec m spread = .ok (family.take m)) ∧
        ∀ sigma, 0 < spec.noiseSigma → 0 < sigma →
          SampleSpec.validate { spec with noiseSigma := sigma } model params = .ok () →
          ∃ other, generateFamilyWith g model params { spec with noiseSigma := sigma } count spread =
            .ok other ∧ other.truths = family.truths := by
  have hparams := SampleSpec.length_of_valid hvalid
  have hfamily (m : ℕ) : generateFamilyWith g model params spec m spread =
      orFaulted (spec.family g model params m spread) := generateFamilyWith_of_valid hvalid hspread
  rcases SampleSpec.exists_family g spec spread count hcurve hparams with
    ⟨hlarge, hfault⟩ | ⟨family, hok⟩
  · exact .inl ⟨hlarge, by rw [hfamily, hfault]; rfl⟩
  have hreturns : generateFamilyWith g model params spec count spread = .ok family := by
    rw [hfamily, hok]
    rfl
  refine .inr ⟨family, hreturns, generateFamilyWith_shaped hreturns, ?truths, ?nested, ?noise⟩
  case truths =>
    obtain ⟨-, -, drawn, hdrawn, rfl⟩ := SampleSpec.family_eq_ok_iff.mp hok
    refine List.forall_mem_map.mpr fun d hd => ?_
    have hsettled := settled_of_drawSeries hparams hdrawn d hd
    exact ⟨(List.Forall₂.length_eq hsettled).symm, hsettled⟩
  case nested =>
    intro m hm
    rw [hfamily, SampleSpec.family_take hok hm]
    rfl
  case noise =>
    intro sigma hsigma hsigma' hvalid'
    obtain ⟨other, hother, htruths⟩ := SampleSpec.family_truths hsigma hsigma' hok
    rw [generateFamilyWith_of_valid hvalid' hspread, hother]
    exact ⟨other, rfl, htruths⟩

/-- Five noisy decays around one, the first two of them, and their parameters under stronger noise. -/
theorem generateFamilyWith_nested_decays :
    let spec : SampleSpec := ⟨16, -1.0, 3.0, 0.25, 7⟩
    ∃ model family other, ModelKind.exponential.model [5.0, 2.0, 1.0] = .ok model ∧
      generateFamily model [5.0, 2.0, 1.0] spec 5 0.5 = .ok family ∧ family.Shaped spec 5 ∧
      (∀ truth ∈ family.truths, truth.length = 3 ∧ model.Settled truth) ∧
      generateFamily model [5.0, 2.0, 1.0] spec 2 0.5 = .ok (family.take 2) ∧
      generateFamily model [5.0, 2.0, 1.0] { spec with noiseSigma := 4.0 } 5 0.5 = .ok other ∧
      other.truths = family.truths := by
  intro spec
  obtain ⟨model, hmodel⟩ : ∃ model, ModelKind.exponential.model ([5.0, 2.0, 1.0] : List Float) =
    .ok model := ⟨_, rfl⟩
  have hanswers := (ModelKind.model_answers hmodel).curve
  have hvalid : spec.validate model [5.0, 2.0, 1.0] = .ok () := by
    cases hmodel
    decide
  have hspread : UsableSpread 0.5 := by decide
  rcases generateFamilyWith_nested chacha 5 hanswers hvalid hspread with
    ⟨hlarge, -⟩ | ⟨family, hfamily, hshaped, htruths, htake, hnoise⟩
  · exact absurd hlarge (by decide)
  · obtain ⟨other, hother, hsame⟩ := hnoise 4.0 (by decide) (by decide)
      (by cases hmodel; decide)
    cases hmodel
    exact ⟨_, family, other, rfl, hfamily, hshaped, htruths, htake 2 (by decide), hother, hsame⟩

end CurveFit

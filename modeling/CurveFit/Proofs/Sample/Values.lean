import CurveFit.Model.Shapes
import CurveFit.Proofs.Binary64.Extremes
import CurveFit.Proofs.Sample.Grid
import CurveFit.Proofs.Steps

/-!
# Which datasets are handed out

A dataset is refused for its values when an extreme of the observations is not finite.  The extremes
pass over NaNs, so that this catches every infinite observation, but a NaN only where there is
nothing else (`generateWith_refused_iff`); and nothing is asked of the grid.  What holds of a dataset
that is handed out is `SampleData.Sound`.  A family is refused for its specification and its spread
alone, whatever its values are (`generateFamilyWith_refused_iff`).
-/

namespace CurveFit

open Binary64 CurveFit.Random

variable {spec : SampleSpec} {model : Model Float} {params : List Float}

/-! ## The specification -/

/-- The places of a grid, as far as their finiteness goes. -/
structure SampleSpec.FitsGrid (spec : SampleSpec) (x : List Float) (first last : Float) : Prop where
  length : x.length = spec.points
  head : x.head? = some first
  getLast : x.getLast? = some last
  isFinite_iff : (∀ v ∈ x, v.isFinite) ↔ last.isFinite
  between : last.isFinite → ∀ v ∈ x, first ≤ v ∧ v ≤ last
  small : |value spec.xMin| ≤ 2 ^ (1019 : ℤ) → |value spec.xMax| ≤ 2 ^ (1019 : ℤ) → last.isFinite

theorem SampleSpec.Ranges.fitsGrid (h : spec.Ranges) :
    ∃ first last, spec.FitsGrid spec.grid first last := by
  have hne : spec.grid ≠ [] := List.ne_nil_of_length_pos (spec.length_grid ▸ h.points_pos)
  have hfirst := List.head?_eq_some_head hne
  have hlast := List.getLast?_eq_some_getLast hne
  have hiff := h.grid_isFinite_iff hlast
  exact ⟨_, _, spec.length_grid, hfirst, hlast, hiff,
    fun hfinite v hv => (h.grid_between hfirst hlast hfinite v hv).2,
    fun hlow hhigh => hiff.mp (h.grid_isFinite_of_small hlow hhigh)⟩

/-- A valid specification with room in memory has a grid. -/
theorem SampleSpec.ranges_of_valid (hvalid : spec.validate model params = .ok ())
    (hroom : checkCapacity spec.points 8 = .ok ()) : spec.Ranges := by
  unfold validate at hvalid
  unfold checkCapacity maxBytes at hroom
  split at hroom
  · cases hroom
  split at hvalid
  · cases hvalid
  split at hvalid
  · cases hvalid
  split at hvalid
  · cases hvalid
  rename_i hcapacity hpoints _ hrange
  simp only [Bool.not_eq_true', Bool.not_eq_false, Bool.and_eq_true, decide_eq_true_eq] at hrange
  obtain ⟨⟨hlow, hhigh⟩, hlt⟩ := hrange
  exact ⟨by omega, by omega, hlow, hhigh, hlt⟩

/-! ## Draws -/

section Draws

variable {g : Generator}

/-- A fold that adds to a list at every step leaves one of the length that was folded over. -/
theorem length_foldl_fst {β σ : Type} {f : List β × σ → β → List β × σ}
    (h : ∀ acc b, (f acc b).1.length = acc.1.length + 1) (l : List β) (acc : List β × σ) :
    (l.foldl f acc).1.length = l.length + acc.1.length := by
  induction l generalizing acc with
  | nil => exact (Nat.zero_add _).symm
  | cons b l ih =>
    rw [List.foldl_cons, ih, h, List.length_cons]
    omega

theorem length_addNoise (sigma : Float) (baseline : List Float) (state : g.State) :
    (addNoise g sigma baseline state).1.length = baseline.length := by
  unfold addNoise
  split
  · rfl
  · exact (List.length_reverse ..).trans (length_foldl_fst (fun _ _ => rfl) baseline ([], state))

theorem Model.length_predict {x y : List Float} (h : model.predict params x = .ok y) :
    y.length = x.length := by
  obtain ⟨f, -, h⟩ := bind_eq_ok_iff.mp h
  cases h
  exact List.length_map f

/-- The observations that a dataset is to have. -/
def SampleSpec.observations (g : Generator) (spec : SampleSpec) (model : Model Float)
    (params : List Float) : Except Fault (List Float) := do
  let baseline ← model.predict params spec.grid
  pure (addNoise g spec.noiseSigma baseline (g.ofSeed spec.seed.toUInt64)).1

theorem length_observations {y : List Float} (h : spec.observations g model params = .ok y) :
    y.length = spec.points := by
  obtain ⟨baseline, hbaseline, h⟩ := bind_eq_ok_iff.mp h
  cases h
  rw [length_addNoise, Model.length_predict hbaseline, spec.length_grid]

end Draws

/-! ## Datasets -/

/-- Observations have an extent if both extremes are finite. -/
theorem stats?_eq {x y : List Float} {first last : Float} (hfirst : x.head? = some first)
    (hlast : x.getLast? = some last) : stats? x y =
      if (y.foldl least infinity).isFinite ∧ (y.foldl greatest (-infinity)).isFinite then
        some ⟨x.length, first, last, y.foldl least infinity, y.foldl greatest (-infinity)⟩
      else none := by
  unfold stats?
  rw [hfirst, hlast]
  show (if _ then _ else _) = _
  simp only [Bool.and_eq_true]

/-- What holds of a dataset that is handed out. -/
structure SampleData.Sound (data : SampleData) (spec : SampleSpec) : Prop where
  x_eq : data.x = spec.grid
  x : spec.FitsGrid data.x data.stats.xMin data.stats.xMax
  y : Extremes data.y data.stats.yMin data.stats.yMax
  length_y : data.y.length = spec.points
  points : data.stats.points = spec.points

/-- Such a dataset is finite throughout unless there is a NaN in it or its grid reaches too far. -/
theorem SampleData.Sound.isFinite_iff {data : SampleData} (h : data.Sound spec) :
    ((∀ x ∈ data.x, x.isFinite) ∧ ∀ y ∈ data.y, y.isFinite) ↔
      data.stats.xMax.isFinite ∧ ∀ y ∈ data.y, y.isNaN = false := by
  refine and_congr h.x.isFinite_iff (forall₂_congr fun y hy => ⟨isNaN_of_isFinite, fun hnan => ?_⟩)
  rcases h.y.between y hy with htrue | ⟨hfinite, -⟩
  · exact absurd (hnan.symm.trans htrue) Bool.false_ne_true
  · exact hfinite

section Generate

variable {g : Generator} {y : List Float}

/-- With everything else in order, the extremes of the observations decide. -/
theorem generateWith_cases (hvalid : spec.validate model params = .ok ())
    (hroom : checkCapacity spec.points 8 = .ok ()) (hy : spec.observations g model params = .ok y) :
    (∃ data, generateWith g model params spec = .ok data ∧ data.y = y ∧ data.Sound spec) ∧
        (y.foldl least infinity).isFinite ∧ (y.foldl greatest (-infinity)).isFinite ∨
      generateWith g model params spec = .error (.refused (.invalidSettings .nonFiniteSample)) ∧
        ¬ ((y.foldl least infinity).isFinite ∧ (y.foldl greatest (-infinity)).isFinite) := by
  have hlength := length_observations hy
  obtain ⟨first, last, hgrid⟩ := (SampleSpec.ranges_of_valid hvalid hroom).fitsGrid
  obtain ⟨baseline, hbaseline, hy⟩ := bind_eq_ok_iff.mp hy
  have hy := Except.ok.inj hy
  have hgenerate : generateWith g model params spec = (stats? spec.grid y).elim
      (.error (.refused (.invalidSettings .nonFiniteSample)))
      fun stats => .ok ⟨spec.grid, y, baseline, stats⟩ := by
    unfold generateWith
    rw [hvalid, hroom]
    show (orFaulted (model.predict params spec.grid) >>= _) = _
    rw [hbaseline]
    show Except.bind (.ok baseline) _ = _
    dsimp only [Except.bind]
    rw [hy]
    cases stats? spec.grid y <;> rfl
  rw [stats?_eq hgrid.head hgrid.getLast] at hgenerate
  by_cases hfinite : (y.foldl least infinity).isFinite ∧ (y.foldl greatest (-infinity)).isFinite
  · rw [if_pos hfinite] at hgenerate
    exact .inl ⟨⟨_, hgenerate, rfl, rfl, hgrid, extremes_of_isFinite hfinite.1 hfinite.2, hlength,
      hgrid.length⟩, hfinite⟩
  · rw [if_neg hfinite] at hgenerate
    exact .inr ⟨hgenerate, hfinite⟩

/-- **Refusals for values.**  A dataset is refused for its values when they are all NaN or one of them is
infinite. -/
theorem generateWith_refused_iff (hvalid : spec.validate model params = .ok ())
    (hroom : checkCapacity spec.points 8 = .ok ()) (hy : spec.observations g model params = .ok y) :
    generateWith g model params spec = .error (.refused (.invalidSettings .nonFiniteSample)) ↔
      (∀ v ∈ y, v.isNaN) ∨ ∃ v ∈ y, v.isNaN = false ∧ ¬ v.isFinite := by
  have hiff := extremes_isFinite_iff (l := y)
  rcases generateWith_cases hvalid hroom hy with ⟨⟨data, hdata, -⟩, hfinite⟩ | ⟨hrefused, hfinite⟩
  · rw [hdata]
    refine iff_of_false nofun ?_
    obtain ⟨⟨v, hv, hsome⟩, hall⟩ := hiff.mp hfinite
    rintro (hnan | ⟨w, hw, hnumber, hinfinite⟩)
    · exact absurd ((isNaN_of_isFinite hsome).symm.trans (hnan v hv)) Bool.false_ne_true
    · rcases hall w hw with hnan | hfinite
      · exact absurd (hnumber.symm.trans hnan) Bool.false_ne_true
      · exact hinfinite hfinite
  · refine iff_of_true hrefused ?_
    by_contra hnot
    rw [not_or] at hnot
    obtain ⟨hsome, hall⟩ := hnot
    push Not at hsome hall
    refine hfinite (hiff.mpr ⟨?_, fun v hv => ?_⟩)
    · obtain ⟨v, hv, hnumber⟩ := hsome
      exact ⟨v, hv, hall v hv (Bool.eq_false_of_not_eq_true hnumber)⟩
    · cases hnan : v.isNaN with
      | true => exact .inl rfl
      | false => exact .inr (hall v hv hnan)

/-- A dataset that is handed out is sound. -/
theorem generateWith_sound {data : SampleData} (h : generateWith g model params spec = .ok data) :
    data.Sound spec := by
  have hdata := h
  unfold generateWith at h
  obtain ⟨_, hvalid, h⟩ := bind_eq_ok_iff.mp h
  obtain ⟨_, hroom, h⟩ := bind_eq_ok_iff.mp h
  obtain ⟨baseline, hbaseline, -⟩ := bind_eq_ok_iff.mp h
  have hy : spec.observations g model params = .ok _ :=
    bind_eq_ok_iff.mpr ⟨baseline, mapError_eq_ok_iff.mp hbaseline, rfl⟩
  rcases generateWith_cases (mapError_eq_ok_iff.mp hvalid) (mapError_eq_ok_iff.mp hroom) hy with
    ⟨⟨data', hdata', -, hsound⟩, -⟩ | ⟨hrefused, -⟩
  · obtain rfl : data' = data := Except.ok.inj (hdata'.symm.trans hdata)
    exact hsound
  · rw [hdata] at hrefused
    cases hrefused

end Generate

/-! ## Families -/

/-- A spread that a family may have. -/
def UsableSpread (spread : Float) : Prop := spread.isFinite ∧ 0 ≤ spread ∧ spread < 1

instance (spread : Float) : Decidable (UsableSpread spread) := inferInstanceAs (Decidable (_ ∧ _))

/-- The family of a specification, as far as memory and the model go. -/
def SampleSpec.family (g : Generator) (spec : SampleSpec) (model : Model Float)
    (params : List Float) (count : ℕ) (spread : Float) : Except Fault SeriesFamily := do
  checkCapacity spec.points 8
  checkCapacity count 24
  let drawn ← drawSeries g model params spec.grid spec.noiseSigma spread count
    (g.ofSeed spec.seed.toUInt64)
  pure ⟨spec.grid, drawn.map (·.1), drawn.map (·.2)⟩

/-- What holds of a family that is handed out: nothing is said about its values. -/
structure SeriesFamily.Shaped (family : SeriesFamily) (spec : SampleSpec) (count : ℕ) : Prop where
  x_eq : family.x = spec.grid
  x : ∃ first last, spec.FitsGrid family.x first last
  length_series : family.series.length = count
  length_truths : family.truths.length = count
  length_y : ∀ y ∈ family.series, y.length = spec.points

section Family

variable {g : Generator} {count : ℕ} {spread : Float}

theorem drawSeries_ok {x : List Float} {sigma : Float} {state : g.State}
    {drawn : List (List Float × List Float)}
    (h : drawSeries g model params x sigma spread count state = .ok drawn) :
    drawn.length = count ∧ ∀ d ∈ drawn, d.1.length = x.length := by
  induction count generalizing state drawn with
  | zero =>
    cases h
    exact ⟨rfl, nofun⟩
  | succ count ih =>
    obtain ⟨baseline, hbaseline, h⟩ := bind_eq_ok_iff.mp h
    obtain ⟨rest, hrest, h⟩ := bind_eq_ok_iff.mp h
    cases h
    obtain ⟨hlength, hall⟩ := ih hrest
    refine ⟨congrArg (· + 1) hlength, List.forall_mem_cons.mpr ⟨?_, hall⟩⟩
    exact (length_addNoise ..).trans (Model.length_predict hbaseline)

/-- The specification and the spread are checked first; then only faults are left. -/
theorem generateFamilyWith_eq : generateFamilyWith g model params spec count spread =
    (orRefused (spec.validate model params) >>= fun _ =>
      if UsableSpread spread then orFaulted (spec.family g model params count spread)
      else .error (.refused (.invalidSettings (.spread spread)))) := by
  unfold generateFamilyWith SampleSpec.family
  refine congrArg _ (funext fun _ => ?_)
  by_cases hspread : UsableSpread spread
  · have hcheck : (spread.isFinite && decide (0.0 ≤ spread) && decide (spread < 1.0)) = true := by
      simp only [Bool.and_eq_true, decide_eq_true_eq]
      exact ⟨⟨hspread.1, hspread.2.1⟩, hspread.2.2⟩
    rw [if_pos hspread, hcheck]
    show (orFaulted (checkCapacity spec.points 8) >>= fun _ =>
      orFaulted (checkCapacity count 24) >>= fun _ => orFaulted (drawSeries g model params spec.grid
        spec.noiseSigma spread count (g.ofSeed spec.seed.toUInt64)) >>= _) = _
    cases checkCapacity spec.points 8 <;> cases checkCapacity count 24 <;>
      cases drawSeries g model params spec.grid spec.noiseSigma spread count
        (g.ofSeed spec.seed.toUInt64) <;> rfl
  · have hcheck : (spread.isFinite && decide (0.0 ≤ spread) && decide (spread < 1.0)) = false := by
      refine Bool.eq_false_of_not_eq_true fun h => hspread ?_
      simp only [Bool.and_eq_true, decide_eq_true_eq] at h
      exact ⟨h.1.1, h.1.2, h.2⟩
    rw [if_neg hspread, hcheck]
    rfl

/-- **Refusals of a family.**  A family is refused for its specification or its spread, whatever its
values are. -/
theorem generateFamilyWith_refused_iff {e : FitError} :
    generateFamilyWith g model params spec count spread = .error (.refused e) ↔
      spec.validate model params = .error e ∨ spec.validate model params = .ok () ∧
        ¬ UsableSpread spread ∧ e = .invalidSettings (.spread spread) := by
  rw [generateFamilyWith_eq, bind_eq_error_iff]
  refine or_congr ?_ ?_
  · constructor
    · intro h
      obtain ⟨e', he', hrefused⟩ := mapError_eq_error_iff.mp h
      exact Failure.refused.inj hrefused ▸ he'
    · exact fun h => mapError_eq_error_iff.mpr ⟨e, h, rfl⟩
  · constructor
    · rintro ⟨_, hvalid, h⟩
      refine ⟨mapError_eq_ok_iff.mp hvalid, ?_⟩
      split at h
      · obtain ⟨e', -, hfaulted⟩ := mapError_eq_error_iff.mp h
        cases hfaulted
      · rename_i hspread
        exact ⟨hspread, (Failure.refused.inj (Except.error.inj h)).symm⟩
    · rintro ⟨hvalid, hspread, rfl⟩
      exact ⟨(), mapError_eq_ok_iff.mpr hvalid, if_neg hspread⟩

/-- A family that is handed out has the shape it was asked for. -/
theorem generateFamilyWith_shaped {family : SeriesFamily}
    (h : generateFamilyWith g model params spec count spread = .ok family) :
    family.Shaped spec count := by
  rw [generateFamilyWith_eq] at h
  obtain ⟨_, hvalid, h⟩ := bind_eq_ok_iff.mp h
  split at h
  · obtain ⟨_, hroom, h⟩ := bind_eq_ok_iff.mp (mapError_eq_ok_iff.mp h)
    obtain ⟨_, -, h⟩ := bind_eq_ok_iff.mp h
    obtain ⟨drawn, hdrawn, h⟩ := bind_eq_ok_iff.mp h
    cases h
    obtain ⟨hlength, hall⟩ := drawSeries_ok hdrawn
    have hranges := SampleSpec.ranges_of_valid (mapError_eq_ok_iff.mp hvalid) hroom
    refine ⟨rfl, hranges.fitsGrid, (List.length_map _).trans hlength,
      (List.length_map _).trans hlength, fun y hy => ?_⟩
    obtain ⟨d, hd, rfl⟩ := List.mem_map.mp hy
    exact (hall d hd).trans spec.length_grid
  · cases h

end Family

/-! ## Both -/

/-- **What is checked of the values.**  A dataset that is handed out lies on its grid; its observations
are NaNs or finite numbers between the extremes in its statistics, which are finite and among the
observations; its grid is finite exactly when the upper end in the statistics is, as it is for ends up
to `2 ^ 1019` in size; so it is finite throughout unless this end is infinite or there is a NaN among
the observations.  A dataset with everything else in order is refused exactly when its
observations are all NaN or one of them is infinite.  A family is refused for its specification or
its spread only, and one that is handed out has the number and the lengths of series it should have,
whatever the values are.  This holds for every source of random numbers. -/
theorem generated_values (g : Generator) (model : Model Float) (params : List Float)
    (spec : SampleSpec) :
    (∀ data, generateWith g model params spec = .ok data → data.Sound spec ∧
      (((∀ x ∈ data.x, x.isFinite) ∧ ∀ y ∈ data.y, y.isFinite) ↔
        data.stats.xMax.isFinite ∧ ∀ y ∈ data.y, y.isNaN = false)) ∧
    (∀ y, spec.validate model params = .ok () → checkCapacity spec.points 8 = .ok () →
      spec.observations g model params = .ok y →
      (generateWith g model params spec = .error (.refused (.invalidSettings .nonFiniteSample)) ↔
        (∀ v ∈ y, v.isNaN) ∨ ∃ v ∈ y, v.isNaN = false ∧ ¬ v.isFinite)) ∧
    ∀ (count : ℕ) (spread : Float),
      (∀ e, generateFamilyWith g model params spec count spread = .error (.refused e) ↔
        spec.validate model params = .error e ∨ spec.validate model params = .ok () ∧
          ¬ UsableSpread spread ∧ e = .invalidSettings (.spread spread)) ∧
      ∀ family, generateFamilyWith g model params spec count spread = .ok family →
        family.Shaped spec count :=
  ⟨fun _ h => ⟨generateWith_sound h, (generateWith_sound h).isFinite_iff⟩,
    fun _ => generateWith_refused_iff,
    fun _ _ => ⟨fun _ => generateFamilyWith_refused_iff, fun _ => generateFamilyWith_shaped⟩⟩

/-- A hyperbola of height zero over three places, with a NaN at its pole. -/
theorem generated_values_pole :
    let model := Model.rational [0.0, 0.0] []
    let spec : SampleSpec := ⟨3, -1.0, 1.0, 0.0, 1⟩
    ∃ data family, generate model [0.0, 0.0] spec = .ok data ∧ data.y.any (·.isNaN) ∧
      data.Sound spec ∧ generateFamily model [0.0, 0.0] spec 2 0.5 = .ok family ∧
        family.Shaped spec 2 ∧ generate model [notANumber, 0.0] spec =
          .error (.refused (.invalidSettings .nonFiniteSample)) := by
  intro model spec
  obtain ⟨data, hdata, hnan⟩ : ∃ data, generate model [0.0, 0.0] spec = .ok data ∧
      data.y.any (·.isNaN) = true := exists_of_any (by decide +kernel)
  obtain ⟨family, hfamily⟩ : ∃ family, generateFamily model [0.0, 0.0] spec 2 0.5 = .ok family :=
    exists_of_isOk (by decide +kernel)
  obtain ⟨hsound, -, hseries⟩ := generated_values chacha model [0.0, 0.0] spec
  obtain ⟨-, hrefused, -⟩ := generated_values chacha model [notANumber, 0.0] spec
  obtain ⟨y, hy, hall⟩ : ∃ y, spec.observations chacha model [notANumber, 0.0] = .ok y ∧
      y.all (·.isNaN) = true := exists_of_any (by decide +kernel)
  refine ⟨data, family, hdata, hnan, (hsound data hdata).1, hfamily, (hseries 2 0.5).2 family hfamily,
    (hrefused y (by decide +kernel) (by decide +kernel) hy).mpr (.inl ?_)⟩
  exact List.all_eq_true.mp hall

/-- Values that are not finite are handed out: a NaN among zeros, a grid that reaches beyond the
largest number, and an infinity in a family. -/
theorem generated_values_not_finite :
    (∃ data, generate (Model.rational [0.0, 0.0] []) [0.0, 0.0] ⟨3, -1.0, 1.0, 0.0, 1⟩ = .ok data ∧
      ∃ y ∈ data.y, ¬ y.isFinite) ∧
    (∃ data, generate (Model.rational [1.0, 0.0] []) [1.0, 0.0]
        ⟨3, -largestFinite, largestFinite, 0.0, 1⟩ = .ok data ∧ ∃ x ∈ data.x, ¬ x.isFinite) ∧
    ∃ family, generateFamily (Model.rational [1.0, 0.0] []) [1.0, 0.0] ⟨3, -1.0, 1.0, 0.0, 1⟩ 1 0.5 =
      .ok family ∧ ∃ ys ∈ family.series, ∃ y ∈ ys, ¬ y.isFinite := by
  refine ⟨?_, ?_, ?_⟩
  · obtain ⟨data, hdata, h⟩ : ∃ data, generate (Model.rational [0.0, 0.0] []) [0.0, 0.0]
        ⟨3, -1.0, 1.0, 0.0, 1⟩ = .ok data ∧ data.y.any (fun y => !y.isFinite) = true :=
      exists_of_any (by decide +kernel)
    exact ⟨data, hdata, by simpa using h⟩
  · obtain ⟨data, hdata, h⟩ : ∃ data, generate (Model.rational [1.0, 0.0] []) [1.0, 0.0]
        ⟨3, -largestFinite, largestFinite, 0.0, 1⟩ = .ok data ∧
          data.x.any (fun x => !x.isFinite) = true := exists_of_any (by decide +kernel)
    exact ⟨data, hdata, by simpa using h⟩
  · obtain ⟨family, hfamily, h⟩ : ∃ family, generateFamily (Model.rational [1.0, 0.0] []) [1.0, 0.0]
        ⟨3, -1.0, 1.0, 0.0, 1⟩ 1 0.5 = .ok family ∧
          family.series.any (fun ys => ys.any fun y => !y.isFinite) = true :=
      exists_of_any (by decide +kernel)
    exact ⟨family, hfamily, by simpa using h⟩

end CurveFit

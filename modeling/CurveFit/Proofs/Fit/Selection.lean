import CurveFit.Cli.Run
import CurveFit.Proofs.Fit.Gate
import CurveFit.Proofs.Fit.Setup

/-!
# The selected backend

One limit is asked for three times: when a capacity is sought that holds every point, when one is
sought that holds them up to the permitted surplus, and when the solver of the selected backend is
set up.  Under valid settings the three answers agree (`selectBackend_cases`,
`fitWithBackend_exceeds`), and what the commands say of the gate and of the selection agrees with
both (`fitDataset_agrees`).  The selection drops as few points as it can unless the permitted surplus
exceeds the smallest capacity (`selectBackend_keepsMost`).
-/

namespace CurveFit

open Binary64 Cli

variable {n : ℕ} {settings : FitSettings}

/-! ## The gate -/

section Gate

variable {u : VectorUnit}

theorem VectorUnit.supports_iff : u.supports n settings ↔
    (u.kernel.isAccelerated → settings.simdEnabled) ∧
      withinCapacity n u.capacity settings.truncateRatio := by
  obtain ⟨_ | _, capacity⟩ := u <;> cases hsimd : settings.simdEnabled <;>
    simp [VectorUnit.supports, Kernel.isAccelerated, Kernel.isAvailable, simdLevel, hsimd]

/-- Without a permitted surplus, the gate lets through what holds every point. -/
theorem VectorUnit.supports_exact_iff (hcapacity : u.capacity + 1 < 2 ^ 53) :
    u.supports n { settings with truncateRatio := 0 } ↔
      (u.kernel.isAccelerated → settings.simdEnabled) ∧ n ≤ u.capacity := by
  rw [supports_iff]
  have hzero : ((0 : Float) == 0) = true := by decide +kernel
  exact and_congr_right fun _ => withinCapacity_exact hcapacity hzero

/-- A permitted surplus shuts no dataset out. -/
theorem VectorUnit.supports_of_exact (hvalid : settings.issue? = none) (hpos : 0 < u.capacity)
    (hcapacity : u.capacity + 1 < 2 ^ 53)
    (h : u.supports n { settings with truncateRatio := 0 }) : u.supports n settings := by
  obtain ⟨hfinite, hratio⟩ := FitSettings.truncateRatio_nonneg hvalid
  obtain ⟨hsimd, hcount⟩ := (supports_exact_iff hcapacity).mp h
  exact supports_iff.mpr ⟨hsimd, withinCapacity_of_count_le hpos hcount hfinite hratio⟩

end Gate

/-! ## The selection -/

theorem capacity_bounds {c : ℕ} (hc : c ∈ acceleratedCapacities) : 0 < c ∧ c + 1 < 2 ^ 53 := by
  revert c
  decide

theorem capacity_le {c : ℕ} (hc : c ∈ acceleratedCapacities) : c ≤ 2048 := by
  revert c
  decide

theorem acceleratedFor_eq_none_iff : acceleratedFor n settings = none ↔
    ∀ c ∈ acceleratedCapacities, ¬ VectorUnit.supports ⟨.avx2, c⟩ n settings := by
  simp [acceleratedFor, acceleratedCapacities, Backend.unit]

theorem acceleratedFor_eq_some {b : Backend} (h : acceleratedFor n settings = some b) :
    ∃ c ∈ acceleratedCapacities, b.unit = ⟨.avx2, c⟩ ∧ b.unit.supports n settings := by
  have hmem := List.mem_of_find?_eq_some h
  have hsupports := List.find?_some h
  rcases List.mem_pair.mp hmem with rfl | rfl
  · exact ⟨1024, by decide, rfl, hsupports⟩
  · exact ⟨2048, by decide, rfl, hsupports⟩

/-- **The selection** ends at an accelerated backend that the gate lets through, or no accelerated
backend is let through. -/
theorem selectBackend_cases (hvalid : settings.issue? = none) :
    (∃ c ∈ acceleratedCapacities, (selectBackend n settings).unit = ⟨.avx2, c⟩ ∧
      (selectBackend n settings).unit.supports n settings) ∨
    selectBackend n settings = .portable ∧
      ∀ c ∈ acceleratedCapacities, ¬ VectorUnit.supports ⟨.avx2, c⟩ n settings := by
  unfold selectBackend
  cases hexact : acceleratedFor n { settings with truncateRatio := 0 } with
  | some b =>
    obtain ⟨c, hc, hunit, hsupports⟩ := acceleratedFor_eq_some hexact
    obtain ⟨hpos, hsmall⟩ := capacity_bounds hc
    refine .inl ⟨c, hc, hunit, ?_⟩
    show b.unit.supports n settings
    rw [hunit] at hsupports ⊢
    exact VectorUnit.supports_of_exact hvalid hpos hsmall hsupports
  | none =>
    cases hsurplus : acceleratedFor n settings with
    | some b => exact .inl (acceleratedFor_eq_some hsurplus)
    | none => exact .inr ⟨rfl, acceleratedFor_eq_none_iff.mp hsurplus⟩

/-- A capacity that holds every point is preferred to one that drops some. -/
theorem le_capacity_selectBackend (h : n ≤ 2048) : n ≤ (selectBackend n settings).capacity := by
  unfold selectBackend
  cases hexact : acceleratedFor n { settings with truncateRatio := 0 } with
  | some b =>
    obtain ⟨c, hc, hunit, hsupports⟩ := acceleratedFor_eq_some hexact
    show n ≤ b.unit.capacity
    rw [hunit] at hsupports ⊢
    exact ((VectorUnit.supports_exact_iff (capacity_bounds hc).2).mp hsupports).2
  | none =>
    -- the largest accelerated unit holds the points, so it has been switched off
    have hoff : settings.simdEnabled = false := by
      by_contra hon
      refine acceleratedFor_eq_none_iff.mp hexact 2048 (by decide) ?_
      exact (VectorUnit.supports_exact_iff (by decide)).mpr ⟨fun _ => by simpa using hon, h⟩
    cases hsurplus : acceleratedFor n settings with
    | some b =>
      obtain ⟨c, hc, hunit, hsupports⟩ := acceleratedFor_eq_some hsurplus
      rw [hunit] at hsupports
      have hon := (VectorUnit.supports_iff.mp hsupports).1 rfl
      rw [hoff] at hon
      cases hon
    | none => exact h.trans (by decide)

/-! ## What is dropped -/

section Dropped

/-- A backend keeps as many of `n` points as every accelerated one that the gate lets through. -/
def Backend.KeepsMost (b : Backend) (n : ℕ) (settings : FitSettings) : Prop :=
  ∀ b' : Backend, b'.isAccelerated → b'.unit.supports n settings →
    min n b'.capacity ≤ min n b.capacity

theorem Backend.keepsMost_of_le {b : Backend} (h : n ≤ b.capacity) : b.KeepsMost n settings := by
  intro b' _ _
  rw [Nat.min_eq_left h]
  exact Nat.min_le_left _ _

/-- Beyond every accelerated capacity the first that is let through is selected. -/
theorem selectBackend_of_lt (h : 2048 < n) :
    selectBackend n settings = (acceleratedFor n settings).getD .portable := by
  have hnone : acceleratedFor n { settings with truncateRatio := 0 } = none := by
    refine acceleratedFor_eq_none_iff.mpr fun c hc hsupports => ?_
    have hcount := ((VectorUnit.supports_exact_iff (capacity_bounds hc).2).mp hsupports).2
    exact absurd (hcount.trans (capacity_le hc)) (Nat.not_le.mpr h)
  unfold selectBackend
  rw [hnone]
  rfl

/-- The larger unit is let through wherever the smaller one is. -/
theorem supports_larger (hvalid : settings.issue? = none)
    (h : Backend.accelerated1024.unit.supports n settings) :
    Backend.accelerated2048.unit.supports n settings := by
  obtain ⟨hfinite, hratio⟩ := FitSettings.truncateRatio_nonneg hvalid
  obtain ⟨hsimd, hwithin⟩ := VectorUnit.supports_iff.mp h
  exact VectorUnit.supports_iff.mpr
    ⟨hsimd, withinCapacity_mono hfinite hratio (by decide) (by decide) hwithin⟩

/-- The smaller unit takes what the larger one cannot hold only if more than half of it may be
dropped. -/
theorem one_lt_truncateRatio (hvalid : settings.issue? = none) (hn : 2048 < n)
    (h : Backend.accelerated1024.unit.supports n settings) : 1 < value settings.truncateRatio := by
  obtain ⟨hfinite, hratio⟩ := FitSettings.truncateRatio_nonneg hvalid
  by_contra hone
  exact absurd (le_double_of_withinCapacity hfinite hratio (not_lt.mp hone) (by decide)
    (VectorUnit.supports_iff.mp h).2) (Nat.not_le.mpr hn)

theorem Backend.capacity_le_of_isAccelerated {b : Backend} (h : b.isAccelerated) :
    b.capacity ≤ 2048 := by
  cases b with
  | portable => exact absurd h (by decide)
  | _ => decide

/-- An accelerated backend that is selected where the smaller unit is shut out is the larger one. -/
theorem capacity_selectBackend (hvalid : settings.issue? = none)
    (haccelerated : (selectBackend n settings).isAccelerated)
    (h : ¬ Backend.accelerated1024.unit.supports n settings) :
    (selectBackend n settings).capacity = 2048 := by
  rcases selectBackend_cases hvalid with ⟨c, hc, hunit, hsupports⟩ | ⟨hportable, -⟩
  · rcases List.mem_pair.mp hc with rfl | rfl
    · rw [hunit] at hsupports
      exact absurd hsupports h
    · exact congrArg VectorUnit.capacity hunit
  · rw [hportable] at haccelerated
    exact absurd haccelerated (by decide)

/-- **What the selection drops.**  An accelerated backend that is selected keeps as many points as
every other one that the gate lets through, unless the points exceed all capacities and even the
smallest is let through.  Then the smallest is selected, which takes a permitted fraction above
one. -/
theorem selectBackend_keepsMost (n : ℕ) (settings : FitSettings) (hvalid : settings.issue? = none)
    (haccelerated : (selectBackend n settings).isAccelerated) :
    let crowded := 2048 < n ∧ Backend.accelerated1024.unit.supports n settings
    ((selectBackend n settings).KeepsMost n settings ↔ ¬ crowded) ∧
    (crowded → 1 < value settings.truncateRatio ∧ selectBackend n settings = .accelerated1024 ∧
      Backend.accelerated2048.unit.supports n settings) := by
  intro crowded
  have hcrowded : crowded → 1 < value settings.truncateRatio ∧
      selectBackend n settings = .accelerated1024 ∧
      Backend.accelerated2048.unit.supports n settings := by
    rintro ⟨hn, hsupports⟩
    have hfirst : acceleratedFor n settings = some .accelerated1024 :=
      List.find?_cons_of_pos hsupports
    rw [selectBackend_of_lt hn, hfirst]
    exact ⟨one_lt_truncateRatio hvalid hn hsupports, rfl, supports_larger hvalid hsupports⟩
  refine ⟨⟨?drops, fun hcase => ?keeps⟩, hcrowded⟩
  case drops =>
    intro hmost hcase
    obtain ⟨-, hselected, hlarger⟩ := hcrowded hcase
    have hle := hmost .accelerated2048 rfl hlarger
    rw [hselected] at hle
    have hless : min n 2048 ≤ min n 1024 := hle
    omega
  case keeps =>
    rcases Nat.lt_or_ge 2048 n with hn | hn
    · intro b' hb' _
      rw [capacity_selectBackend hvalid haccelerated fun h => hcase ⟨hn, h⟩]
      exact min_le_min_left n (Backend.capacity_le_of_isAccelerated hb')
    · exact Backend.keepsMost_of_le (le_capacity_selectBackend hn)

/-- A quarter of the capacity may be dropped, which the smaller unit cannot do with. -/
theorem selectBackend_keepsMost_quarter :
    let settings : FitSettings := { FitSettings.default with truncateRatio := 0.25 }
    FitSettings.issue? settings = none ∧ (selectBackend 2500 settings).isAccelerated ∧
      (selectBackend 2500 settings).KeepsMost 2500 settings := by
  intro settings
  have hvalid : FitSettings.issue? settings = none := by decide +kernel
  have haccelerated : (selectBackend 2500 settings).isAccelerated := by decide +kernel
  obtain ⟨hmost, -⟩ := selectBackend_keepsMost 2500 settings hvalid haccelerated
  exact ⟨hvalid, haccelerated, hmost.mpr (by decide +kernel)⟩

/-- With a fraction of one and a half, 2500 points are cut down to 1024, although the larger unit is
let through and would keep 2048. -/
theorem selectBackend_not_keepsMost :
    ¬ ∀ (n : ℕ) (settings : FitSettings), settings.issue? = none → settings.simdEnabled →
      (selectBackend n settings).isAccelerated →
        (selectBackend n settings).KeepsMost n settings := by
  intro hall
  let settings := { FitSettings.default with truncateRatio := 1.5 }
  have hmost := hall 2500 settings (by decide +kernel) rfl (by decide +kernel)
  have hlarger : Backend.accelerated2048.unit.supports 2500 settings := by decide +kernel
  have hselected : selectBackend 2500 settings = .accelerated1024 := by decide +kernel
  have hle := hmost .accelerated2048 rfl hlarger
  rw [hselected] at hle
  exact absurd hle (by decide)

end Dropped

/-! ## Fits -/

section Fits

variable {b : Backend} {model : Model Float} {x y initial : List Float} {report : FitReport Float}

/-- A fit is refused for its number of points only where the gate refuses it. -/
theorem fitWithBackend_exceeds (hvalid : settings.issue? = none) {requested capacity : ℕ}
    (h : fitWithBackend b model x y initial settings =
      .error (.refused (.capacityExceeded requested capacity))) :
    requested = x.length ∧ capacity = b.capacity ∧
      ¬ withinCapacity x.length b.capacity settings.truncateRatio := by
  have hstart : Solver.start b.unit model x y initial settings =
      .error (.capacityExceeded requested capacity) := by
    rcases bind_eq_error_iff.mp h with hnew | ⟨s, -, hrun⟩
    · obtain ⟨_, hnew, hrefused⟩ := mapError_eq_error_iff.mp hnew
      cases hrefused
      unfold Solver.new at hnew
      rwa [FitSettings.validate_eq_ok_iff.mpr hvalid] at hnew
    · -- a solver that runs is never refused
      rcases bind_eq_error_iff.mp hrun with hfit | ⟨_, -, hpure⟩
      · obtain ⟨_, -, hfault⟩ := mapError_eq_error_iff.mp hfit
        cases hfault
      · cases hpure
  rw [Solver.start_eq] at hstart
  split_ifs at hstart with hlen hcount hempty hwithin <;> cases hstart
  exact ⟨rfl, rfl, by simpa [Backend.capacity] using hwithin⟩

/-- A fit is over the points that its backend keeps, and only where the gate lets them through. -/
theorem fitWithBackend_points (h : fitWithBackend b model x y initial settings = .ok report) :
    report.points = min x.length b.capacity ∧
      withinCapacity x.length b.capacity settings.truncateRatio := by
  obtain ⟨s, hnew, hrun⟩ := bind_eq_ok_iff.mp h
  obtain ⟨⟨report, t⟩, hfit, hpure⟩ := bind_eq_ok_iff.mp hrun
  cases hpure
  obtain ⟨-, hstart⟩ := Solver.new_eq_ok_iff.mp (mapError_eq_ok_iff.mp hnew)
  obtain ⟨hlen, hcount, -, hwithin, rfl⟩ := Solver.start_eq_ok_iff.mp hstart
  obtain ⟨visits, s', ending, chi2, w, htrail, -, -, rfl, -⟩ :=
    Solver.fit_ok (Solver.ready_fresh hlen hcount) (mapError_eq_ok_iff.mp hfit)
  obtain ⟨-, hshares⟩ := htrail.ready (Solver.ready_fresh hlen hcount)
  refine ⟨?_, hwithin⟩
  show s'.x.length = _
  rw [hshares.x]
  exact Solver.points_fresh

/-- A fit of a dataset is refused for its number of points only on the portable backend, and only
beyond its bound. -/
theorem fitDataset_exceeds (hvalid : settings.issue? = none) {requested capacity : ℕ}
    (h : fitDataset model x y initial settings =
      .error (.refused (.capacityExceeded requested capacity))) :
    selectBackend x.length settings = .portable ∧
      ¬ withinCapacity x.length portableCapacity settings.truncateRatio := by
  have hfit : fitWithBackend (selectBackend x.length settings) model x y initial settings =
      .error (.refused (.capacityExceeded requested capacity)) := by
    rcases bind_eq_error_iff.mp h with hfit | ⟨_, -, hpure⟩
    · exact hfit
    · cases hpure
  obtain ⟨-, -, hexceeds⟩ := fitWithBackend_exceeds hvalid hfit
  rcases selectBackend_cases hvalid with ⟨_, -, -, hsupports⟩ | ⟨hportable, -⟩
  · exact absurd (VectorUnit.supports_iff.mp hsupports).2 hexceeds
  · rw [hportable] at hexceeds
    exact ⟨hportable, hexceeds⟩

/-- The bound of the portable backend is exact up to the rounding of the permitted fraction. -/
theorem lt_of_not_withinCapacity (hvalid : settings.issue? = none)
    (h : ¬ withinCapacity n portableCapacity settings.truncateRatio) :
    portableCapacity * (1 + value settings.truncateRatio) < n := by
  obtain ⟨hfinite, hratio⟩ := FitSettings.truncateRatio_nonneg hvalid
  have hbound : (portableCapacity : ℚ) = 2 ^ 20 := by norm_num [portableCapacity]
  by_contra hle
  rw [not_lt, hbound] at hle
  exact h (withinCapacity_of_le_bound (k := 20) (by decide) hfinite hratio hle)

/-- The report of a fit of a dataset is on the points that the selected backend keeps. -/
theorem fitDataset_points {b' : Backend}
    (h : fitDataset model x y initial settings = .ok (b', report)) :
    b' = selectBackend x.length settings ∧
      report.points = min x.length (selectBackend x.length settings).capacity ∧
      (x.length ≤ 2048 ∨ settings.truncateRatio == 0 → report.points = x.length) := by
  obtain ⟨report, hfit, hpure⟩ := bind_eq_ok_iff.mp h
  cases hpure
  obtain ⟨hpoints, hwithin⟩ := fitWithBackend_points hfit
  refine ⟨rfl, hpoints, fun hall => hpoints.trans (Nat.min_eq_left ?_)⟩
  rcases hall with hsmall | hzero
  · exact le_capacity_selectBackend hsmall
  · refine (withinCapacity_exact ?_ hzero).mp hwithin
    cases selectBackend x.length settings <;> decide

end Fits

/-! ## What the commands say -/

section Commands

theorem isAccelerated_selectBackend_iff (hvalid : settings.issue? = none) :
    (selectBackend n settings).isAccelerated ↔
      ∃ c ∈ acceleratedCapacities, VectorUnit.supports ⟨.avx2, c⟩ n settings := by
  rcases selectBackend_cases hvalid with ⟨c, hc, hunit, hsupports⟩ | ⟨hportable, hnone⟩
  · rw [hunit] at hsupports
    unfold Backend.isAccelerated
    rw [hunit]
    exact ⟨fun _ => ⟨c, hc, hsupports⟩, fun _ => rfl⟩
  · rw [hportable]
    exact ⟨fun h => absurd h (by decide), fun ⟨c, hc, h⟩ => absurd h (hnone c hc)⟩

theorem supports_selectBackend (hvalid : settings.issue? = none)
    (h : (selectBackend n settings).isAccelerated) :
    (selectBackend n settings).unit = ⟨.avx2, (selectBackend n settings).capacity⟩ ∧
      (selectBackend n settings).capacity ∈ acceleratedCapacities ∧
      (selectBackend n settings).unit.supports n settings := by
  rcases selectBackend_cases hvalid with ⟨c, hc, hunit, hsupports⟩ | ⟨hportable, -⟩
  · have hcapacity : (selectBackend n settings).capacity = c :=
      congrArg VectorUnit.capacity hunit
    rw [hcapacity]
    exact ⟨hunit, hc, hsupports⟩
  · rw [hportable] at h
    exact absurd h (by decide)

theorem resolveBackend_accelerated : resolveBackend .accelerated n settings =
    if (selectBackend n settings).isAccelerated then .ok (selectBackend n settings)
    else .error (.unsupported "accelerated backend unavailable for this dataset") := by
  unfold resolveBackend
  cases selectBackend n settings <;> rfl

end Commands

/-- **The gate, the selection and the fits agree** about `n` points.  The selected backend is an
accelerated one that the gate lets through, if it lets one through at all; asking for an accelerated
backend is answered alike, and so are the lines that show the gate's answers.  A fit of `n` points on
the selected backend is refused for their number only if that is the portable one and the points
exceed its bound, also in exact arithmetic; and the report of a fit is on the points that the backend
holds, which is all of them up to 2048, and wherever no surplus is permitted. -/
theorem fitDataset_agrees (n : ℕ) (settings : FitSettings) (hvalid : settings.issue? = none) :
    let b := selectBackend n settings
    (b.isAccelerated ↔ settings.simdEnabled ∧
      ∃ c ∈ acceleratedCapacities, VectorUnit.supports ⟨.avx2, c⟩ n settings) ∧
    (b.isAccelerated → b.capacity ∈ acceleratedCapacities ∧ b.unit.supports n settings) ∧
    (resolveBackend .accelerated n settings = if b.isAccelerated then .ok b
      else .error (.unsupported "accelerated backend unavailable for this dataset")) ∧
    (∀ (w : World) flags, w.settings flags = .ok settings → ∃ gate : List (ℕ × Bool),
      runSupport w n flags =
          .ok (.printed (Summary.ofSupport simdLevel n settings gate b ++ "\n")) ∧
        gate.map Prod.fst = acceleratedCapacities ∧
        (b.isAccelerated ↔ ∃ line ∈ gate, line.2) ∧
        (b.isAccelerated → (b.capacity, true) ∈ gate)) ∧
    ∀ (model : Model Float) (x y initial : List Float), x.length = n → y.length = n →
      (∀ requested capacity, fitDataset model x y initial settings =
          .error (.refused (.capacityExceeded requested capacity)) →
        b = .portable ∧ ¬ withinCapacity n portableCapacity settings.truncateRatio ∧
          portableCapacity * (1 + value settings.truncateRatio) < n) ∧
      ∀ b' report, fitDataset model x y initial settings = .ok (b', report) →
        b' = b ∧ report.points = min n b.capacity ∧
          (n ≤ 2048 ∨ settings.truncateRatio == 0 → report.points = n) := by
  intro b
  refine ⟨?gate, fun h => (supports_selectBackend hvalid h).2, resolveBackend_accelerated, ?lines,
    ?fits⟩
  case gate =>
    rw [isAccelerated_selectBackend_iff hvalid]
    refine ⟨fun ⟨c, hc, hsupports⟩ => ?_, fun ⟨_, h⟩ => h⟩
    exact ⟨(VectorUnit.supports_iff.mp hsupports).1 rfl, c, hc, hsupports⟩
  case lines =>
    intro w flags hw
    refine ⟨acceleratedCapacities.map fun c => (c, VectorUnit.supports ⟨.avx2, c⟩ n settings),
      ?_, ?_, ?_, fun h => ?_⟩
    · unfold runSupport
      rw [hw]
      rfl
    · rw [List.map_map]
      exact List.map_id _
    · rw [isAccelerated_selectBackend_iff hvalid]
      simp
    · obtain ⟨hunit, hcapacity, hsupports⟩ := supports_selectBackend hvalid h
      rw [hunit] at hsupports
      exact List.mem_map.mpr ⟨_, hcapacity, congrArg _ hsupports⟩
  case fits =>
    rintro model x y initial rfl -
    refine ⟨fun requested capacity h => ?_, fun b' report h => fitDataset_points h⟩
    obtain ⟨hportable, hexceeds⟩ := fitDataset_exceeds hvalid h
    exact ⟨hportable, hexceeds, lt_of_not_withinCapacity hvalid hexceeds⟩

/-- A quarter of the capacity may be dropped: the larger unit takes 2500 points, the smaller one all
of two points. -/
theorem fitDataset_agrees_quarter :
    let settings := { FitSettings.default with maxIterations := 1, truncateRatio := 0.25 }
    resolveBackend .accelerated 2500 settings = .ok .accelerated2048 ∧
      ∃ report, fitDataset (.polynomial [0.0, 1.0] []) [1.0, 2.0] [2.0, 1.0] [0.0, 1.0] settings =
        .ok (.accelerated1024, report) ∧ report.points = 2 := by
  intro settings
  have hvalid : FitSettings.issue? settings = none := by decide +kernel
  have hlarge : selectBackend 2500 settings = .accelerated2048 := by decide +kernel
  obtain ⟨-, -, hresolve, -, -⟩ := fitDataset_agrees 2500 settings hvalid
  obtain ⟨-, -, -, -, hfits⟩ := fitDataset_agrees 2 settings hvalid
  obtain ⟨⟨b, report⟩, hfit, hb⟩ : ∃ r, fitDataset (.polynomial [0.0, 1.0] []) [1.0, 2.0] [2.0, 1.0]
      [0.0, 1.0] settings = .ok r ∧ decide (r.1 = .accelerated1024) = true :=
    exists_of_any (by decide +kernel)
  obtain rfl : b = .accelerated1024 := of_decide_eq_true hb
  obtain ⟨-, hpoints⟩ := hfits _ [1.0, 2.0] [2.0, 1.0] [0.0, 1.0] rfl rfl
  obtain ⟨-, -, hall⟩ := hpoints _ report hfit
  rw [hlarge] at hresolve
  exact ⟨hresolve, report, hfit, hall (.inl (by decide))⟩

end CurveFit

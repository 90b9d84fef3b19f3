import CurveFit.Proofs.Fit.Datasets
import CurveFit.Proofs.Fit.Gate
import CurveFit.Proofs.Fit.History

/-!
# Truncated datasets

A unit that cannot hold every point of a dataset fits the first ones.  From then on its solver does
what the solver of any unit with the same kernel does for these points alone, through all fits and
all loadings of whole series (`Alike.serve`), so the dropped points have no say in any report
(`Solver.fit_truncated`).
-/

namespace CurveFit

open LaneVector

variable {α : Type}

/-! ## Solvers of the same points -/

section Alike

variable [OfNat α 0] [OfNat α 1] [Add α] [Sub α] [Mul α] [Div α] [Neg α] [BEq α]

/-- Solvers with the same kernel, model and points find the same. -/
theorem Solver.matches_same {s t : Solver α} (hkernel : t.unit.kernel = s.unit.kernel)
    (hmodel : t.model = s.model) (hx : t.x = s.x) (hy : t.y = s.y) : s.Matches Eq t := by
  obtain ⟨⟨_, _⟩, _, _, _, _, _, _, _, _, _⟩ := s
  obtain ⟨⟨_, _⟩, _, _, _, _, _, _, _, _, _⟩ := t
  cases hkernel
  cases hmodel
  cases hx
  cases hy
  refine ⟨fun _ => rfl, ?_⟩
  rintro values lambda b _ - - - rfl
  exact ⟨rfl, rfl⟩

/-- A solver that was given `n` points and kept `m` of them, and one that was given only these, with
the same kernel and at the same point of their fit. -/
structure Alike (n m : ℕ) (s t : Solver α) : Prop where
  lockstep : Lockstep Eq s t
  kernel : t.unit.kernel = s.unit.kernel
  x : t.x = s.x
  y : t.y = s.y
  given : s.sourceLength = n
  kept : s.points = m
  cut : t.sourceLength = m

namespace Alike

variable {n m : ℕ} {s t : Solver α} {k : Kernel} {capacity capacity' : ℕ} {model : Model α}
  {x y initial : List α} {settings : Settings α}

/-- A fresh solver of a dataset is like one of the points that its unit keeps. -/
theorem fresh (hlen : x.length = y.length) (hcount : initial.length = model.parameterCount)
    (hkept : min x.length capacity = m) (hm : m ≤ capacity') :
    Alike x.length m (Solver.fresh ⟨k, capacity⟩ model x y initial settings)
      (Solver.fresh ⟨k, capacity'⟩ model (x.take m) (y.take m) initial settings) := by
  have hcut : (x.take m).length = m := by
    rw [List.length_take]
    exact Nat.min_eq_left (hkept ▸ Nat.min_le_left _ _)
  have hsome : Solver.keptPoints ⟨k, capacity⟩ x = m := hkept
  have hall : Solver.keptPoints ⟨k, capacity'⟩ (x.take m) = m := by
    unfold Solver.keptPoints
    rw [hcut]
    exact Nat.min_eq_left hm
  have htake : ∀ values : List α,
      (values.take m).take (Solver.keptPoints ⟨k, capacity'⟩ (x.take m)) =
        values.take (Solver.keptPoints ⟨k, capacity⟩ x) := by
    intro values
    rw [hall, hsome, List.take_take, Nat.min_self]
  have hy := congrArg ofLanes (htake y)
  exact
    { lockstep := .fresh (fun _ => rfl) hlen (by simp [hlen]) hcount (hall.trans hsome.symm)
        (Solver.matches_same rfl rfl (htake x) hy)
      kernel := rfl
      x := htake x
      y := hy
      given := rfl
      kept := by rw [Solver.points_fresh, hsome]
      cut := hcut }

theorem length_take (h : Alike n m s t) (hy : y.length = n) :
    (y.take m).length = t.sourceLength := by
  rw [List.length_take, hy, h.cut, ← h.given, ← h.kept, h.lockstep.left.points]
  exact Nat.min_eq_left (Nat.min_le_left _ _)

/-- Other observations for all points given, cut to the points kept. -/
theorem loaded (h : Alike n m s t) (hy : y.length = n)
    (hcount : initial.length = s.parameters.length) :
    Alike n m (s.loaded y initial) (t.loaded (y.take m) initial) := by
  have hlen : y.length = s.sourceLength := hy.trans h.given.symm
  have hlen' := h.length_take hy
  have hcount' : initial.length = t.parameters.length := by rw [hcount, h.lockstep.parameters]
  have hobserved : (t.loaded (y.take m) initial).y = (s.loaded y initial).y := by
    rw [Solver.y_loaded h.lockstep.right hlen', Solver.y_loaded h.lockstep.left hlen,
      h.lockstep.points, h.kept, List.take_take, Nat.min_self]
  exact
    { lockstep :=
        { left := h.lockstep.left.loaded hlen hcount
          right := h.lockstep.right.loaded hlen' hcount'
          model := h.lockstep.model
          settings := h.lockstep.settings
          points := h.lockstep.points
          parameters := rfl
          lambda := congrArg Settings.initialLambda h.lockstep.settings
          trace := rfl
          rows := h.lockstep.rows
          findings := Solver.matches_same h.kernel h.lockstep.model h.x hobserved }
      kernel := h.kernel
      x := h.x
      y := hobserved
      given := h.given
      kept := h.kept
      cut := h.cut }

/-- A loading is refused by both or by none. -/
theorem reload (h : Alike n m s t) (hy : y.length = n) :
    Agree (Alike n m) (s.reload y initial) (t.reload (y.take m) initial) := by
  have hlen : y.length = s.sourceLength := hy.trans h.given.symm
  have hlen' := h.length_take hy
  rw [Solver.reload_eq, Solver.reload_eq, if_neg (not_not.mpr hlen), if_neg (not_not.mpr hlen'),
    h.lockstep.parameters]
  by_cases hcount : initial.length = s.parameters.length
  · rw [if_neg (not_not.mpr hcount), if_neg (not_not.mpr hcount)]
    exact .ok (h.loaded hy hcount)
  · rw [if_pos hcount, if_pos hcount]
    exact .error _

variable [OfNat α 10] [LE α] [DecidableLE α] [LT α] [DecidableLT α] [FitScalar α]

theorem fit (h : Alike n m s t) :
    Agree (fun p q => p.1 = q.1 ∧ Alike n m p.2 q.2) s.fit t.fit := by
  refine h.lockstep.fit.remember.mono ?_
  rintro ⟨report, s'⟩ ⟨_, t'⟩ ⟨⟨rfl, hlock⟩, hs, ht⟩
  obtain ⟨-, hshares⟩ := h.lockstep.left.fit hs
  obtain ⟨-, hshares'⟩ := h.lockstep.right.fit ht
  exact ⟨rfl,
    { lockstep := hlock
      kernel := by rw [hshares'.unit, hshares.unit, h.kernel]
      x := by rw [hshares'.x, hshares.x, h.x]
      y := by rw [hshares'.y, hshares.y, h.y]
      given := hshares.sourceLength.trans h.given
      kept := (congrArg List.length hshares.x).trans h.kept
      cut := hshares'.sourceLength.trans h.cut }⟩

end Alike

end Alike

/-! ## Calls -/

/-- A call with its observations cut. -/
def Call.cut (m : ℕ) : Call α → Call α
  | .fit => .fit
  | .reload y initial => .reload (y.take m) initial

/-- A call whose observations are `n`. -/
def Call.Whole (n : ℕ) : Call α → Prop
  | .fit => True
  | .reload y _ => y.length = n

section Serve

variable [OfNat α 0] [OfNat α 1] [OfNat α 10] [Add α] [Sub α] [Mul α] [Div α] [Neg α] [BEq α]
  [LE α] [DecidableLE α] [LT α] [DecidableLT α] [FitScalar α] {n m : ℕ} {s t : Solver α}

/-- **Dropped points** have no say in what a solver answers, whatever whole series it is loaded
with. -/
theorem Alike.serve (h : Alike n m s t) {calls : List (Call α)}
    (hwhole : ∀ call ∈ calls, call.Whole n) :
    Agree (fun p q => p.1 = q.1 ∧ Alike n m p.2 q.2) (s.serve calls)
      (t.serve (calls.map (Call.cut m))) := by
  induction calls generalizing s t with
  | nil => exact .ok ⟨rfl, h⟩
  | cons call calls ih =>
    have hrest : ∀ call ∈ calls, call.Whole n := fun c hc => hwhole c (List.mem_cons_of_mem _ hc)
    have hfirst := hwhole call (List.mem_cons_self ..)
    cases call with
    | fit =>
      show Agree _ (s.fit >>= _) (t.fit >>= _)
      refine h.fit.bind ?_
      rintro ⟨report, s'⟩ ⟨_, t'⟩ ⟨rfl, h'⟩
      refine (ih h' hrest).bind ?_
      rintro ⟨reports, s''⟩ ⟨_, t''⟩ ⟨rfl, h''⟩
      exact .ok ⟨rfl, h''⟩
    | reload y initial =>
      have hreload : Agree (Alike n m) (s.reload y initial) (t.reload (y.take m) initial) :=
        h.reload hfirst
      show Agree _ (s.serve (.reload y initial :: calls))
        (t.serve (.reload (y.take m) initial :: calls.map (Call.cut m)))
      unfold Solver.serve
      generalize s.reload y initial = p at hreload ⊢
      generalize t.reload (y.take m) initial = q at hreload ⊢
      cases hreload with
      | error e => exact ih h hrest
      | ok h' => exact ih h' hrest

end Serve

/-! ## Prefixes of a dataset -/

section Binary64

variable {model : Model Float} {settings : FitSettings} {x y initial : List Float}

/-- Whoever takes a dataset takes the points that are kept of it as well. -/
theorem Solver.new_cut {k : Kernel} {capacity capacity' : ℕ} {s₀ : Solver Float}
    (hnew : Solver.new ⟨k, capacity⟩ model x y initial settings = .ok s₀)
    (hcapacity : min x.length capacity ≤ capacity') :
    ∃ t₀, Solver.new ⟨k, capacity'⟩ model (x.take (min x.length capacity))
        (y.take (min x.length capacity)) initial settings = .ok t₀ ∧
      Alike x.length (min x.length capacity) s₀ t₀ := by
  obtain ⟨hvalid, hstart⟩ := new_eq_ok_iff.mp hnew
  obtain ⟨hlen, hcount, hempty, hwithin, rfl⟩ := start_eq_ok_iff.mp hstart
  obtain ⟨hfinite, hratio⟩ := FitSettings.truncateRatio_nonneg hvalid
  have hgiven : 0 < x.length := List.length_pos_iff.mpr hempty
  have hkept : 0 < min x.length capacity :=
    Nat.lt_min.mpr ⟨hgiven, capacity_pos_of_withinCapacity hgiven hwithin⟩
  have hcut : (x.take (min x.length capacity)).length = min x.length capacity := by
    rw [List.length_take]
    exact Nat.min_eq_left (Nat.min_le_left _ _)
  refine ⟨_, new_eq_fresh hvalid (by simp [hlen]) hcount ?_ ?_,
    Alike.fresh hlen hcount rfl hcapacity⟩
  · rw [← List.length_pos_iff, hcut]
    exact hkept
  · rw [hcut]
    exact withinCapacity_of_count_le (hkept.trans_le hcapacity) hcapacity hfinite hratio

theorem Alike.outcome {n m : ℕ} {s t : Solver Float} (h : Alike n m s t) : s.outcome = t.outcome :=
  h.lockstep.outcome

/-- A solver that is loaded before it has run is a fresh one. -/
theorem Solver.loaded_fresh {u : VectorUnit} {y₀ init₀ : List Float} (hlen : x.length = y₀.length)
    (hcount : init₀.length = model.parameterCount) (hy : y.length = x.length) :
    (fresh u model x y₀ init₀ settings).loaded y initial = fresh u model x y initial settings := by
  have hobserved : ((fresh u model x y₀ init₀ settings).loaded y initial).y =
      ofLanes (y.take (keptPoints u x)) := by
    rw [y_loaded (ready_fresh hlen hcount) hy, points_fresh]
  show { fresh u model x y initial settings with
    y := ((fresh u model x y₀ init₀ settings).loaded y initial).y } = _
  rw [hobserved]
  rfl

/-- A loaded solver shows what a fresh one shows, if it has not run or its model fills its slots. -/
theorem Solver.outcome_loaded {u : VectorUnit} {y₀ init₀ : List Float} (hlen : x.length = y₀.length)
    (hcount : init₀.length = model.parameterCount) {calls : List (Call Float)}
    {reports : List (FitReport Float)} {s s' : Solver Float}
    (hclean : model.FillsSlots ∨ calls = [])
    (hserve : (fresh u model x y₀ init₀ settings).serve calls = .ok (reports, s))
    (hload : s.reload y initial = .ok s') :
    y.length = x.length ∧ initial.length = model.parameterCount ∧
      s'.outcome = (fresh u model x y initial settings).outcome := by
  obtain ⟨hs, htask⟩ := (ready_fresh hlen hcount).serve hserve
  obtain ⟨hy, hcount', rfl⟩ := reload_eq_ok_iff.mp hload
  have hy : y.length = x.length := hy.trans htask.sourceLength
  have hcount' : initial.length = model.parameterCount := by
    rw [hcount', hs.counted, htask.model]
    rfl
  refine ⟨hy, hcount', ?_⟩
  rcases hclean with hfill | rfl
  · exact (hs.twins_loaded htask hfill hy hcount').outcome
  · cases hserve
    rw [loaded_fresh hlen hcount hy]

/-- A capacity that holds every point has no say in a fit. -/
theorem fitOn_capacity {k : Kernel} {capacity capacity' : ℕ} (hpos : 0 < capacity)
    (hpos' : 0 < capacity') (h : x.length ≤ capacity) (h' : x.length ≤ capacity') :
    fitOn FitSettings.validate ⟨k, capacity⟩ model x y initial settings =
      fitOn FitSettings.validate ⟨k, capacity'⟩ model x y initial settings := by
  refine fitOn_congr (R := Eq) fun hvalid => ?_
  obtain ⟨hfinite, hratio⟩ :=
    FitSettings.truncateRatio_nonneg (FitSettings.validate_eq_ok_iff.mp hvalid)
  refine Solver.start_agree rfl rfl (withinCapacity_of_count_le hpos h hfinite hratio)
    (withinCapacity_of_count_le hpos' h' hfinite hratio) fun hlen hcount => ?_
  have halike : Alike x.length x.length (Solver.fresh ⟨k, capacity⟩ model x y initial settings)
      (Solver.fresh ⟨k, capacity'⟩ model (x.take x.length) (y.take x.length) initial settings) :=
    Alike.fresh hlen hcount (Nat.min_eq_left h) h'
  rw [List.take_length, hlen, List.take_length] at halike
  exact halike.lockstep

/-- **A truncated fit** is the fit of the points that are kept.  Take a solver of any dataset, and
any unit with the same kernel that holds the first points up to the capacity of the solver.  The
unit sets up a solver of these points alone, and both show the same now and after any fits and
loadings with whole series.  What is shown after such a loading is also what a new solver of the
kept points shows, if the solver has not run or its model fills its slots.  So the accelerated
backends give one report where both hold all points. -/
theorem Solver.fit_truncated (k : Kernel) (model : Model Float) (x y initial : List Float)
    (settings : FitSettings) :
    (∀ capacity capacity' s₀, Solver.new ⟨k, capacity⟩ model x y initial settings = .ok s₀ →
      let m := min x.length capacity
      m ≤ capacity' →
        ∃ t₀, Solver.new ⟨k, capacity'⟩ model (x.take m) (y.take m) initial settings = .ok t₀ ∧
          s₀.outcome = t₀.outcome ∧
          (∀ calls : List (Call Float), (∀ call ∈ calls, call.Whole x.length) →
            Agree (fun p q => p.1 = q.1 ∧ p.2.outcome = q.2.outcome) (s₀.serve calls)
              (t₀.serve (calls.map (Call.cut m)))) ∧
          ∀ calls reports s y' initial' s', model.FillsSlots ∨ calls = [] →
            s₀.serve calls = .ok (reports, s) → s.reload y' initial' = .ok s' →
              ∃ t',
                Solver.new ⟨k, capacity'⟩ model (x.take m) (y'.take m) initial' settings = .ok t' ∧
                  s'.outcome = t'.outcome) ∧
    (x.length ≤ 1024 →
      fitWithBackend .accelerated1024 model x y initial settings =
        fitWithBackend .accelerated2048 model x y initial settings) := by
  refine ⟨?_, fun hx => ?_⟩
  · intro capacity capacity' s₀ hnew m hm
    obtain ⟨t₀, hnew', halike⟩ := new_cut hnew hm
    refine ⟨t₀, hnew', halike.outcome, fun calls hwhole => ?_, ?_⟩
    · refine (halike.serve hwhole).mono ?_
      rintro ⟨reports, s⟩ ⟨_, t⟩ ⟨rfl, h⟩
      exact ⟨rfl, h.outcome⟩
    · intro calls reports s y' initial' s' hclean hserve hload
      obtain ⟨hlen, hcount, rfl⟩ := new_ok hnew
      obtain ⟨hy', hcount', houtcome⟩ := outcome_loaded hlen hcount hclean hserve hload
      obtain ⟨t', ht', halike'⟩ := new_cut (new_of_new hnew hy' hcount') hm
      exact ⟨t', ht', houtcome.trans halike'.outcome⟩
  · rw [fitWithBackend_eq, fitWithBackend_eq]
    exact fitOn_capacity (by decide) (by decide) hx (hx.trans (by decide))

/-- Five points on a unit that keeps four of them, fitted, loaded and fitted again. -/
theorem Solver.fit_truncated_line :
    let model : Model Float := .polynomial [0.0, 1.0] [.nonNegative]
    let x : List Float := [1.0, 2.0, 3.0, 4.0, 5.0]
    let y : List Float := [1.0, 0.5, 4.0, 2.0, 9.0]
    let y' : List Float := [2.0, 1.0, 0.0, 3.0, 7.0]
    let settings := { FitSettings.default with maxIterations := 1, truncateRatio := 0.25 }
    ∃ s₀ t₀ reports s s' t',
      Solver.new ⟨.avx2, 4⟩ model x y [0.0, 1.0] settings = .ok s₀ ∧
        Solver.new ⟨.avx2, 6⟩ model (x.take 4) (y.take 4) [0.0, 1.0] settings = .ok t₀ ∧
          s₀.outcome = t₀.outcome ∧
            s₀.serve [.fit] = .ok (reports, s) ∧ s.reload y' [0.5, 0.5] = .ok s' ∧
              Solver.new ⟨.avx2, 6⟩ model (x.take 4) (y'.take 4) [0.5, 0.5] settings = .ok t' ∧
                s'.outcome = t'.outcome ∧
                  fitWithBackend .accelerated1024 model x y [0.0, 1.0] settings =
                    fitWithBackend .accelerated2048 model x y [0.0, 1.0] settings := by
  intro model x y y' settings
  have hfill : model.FillsSlots := Model.polynomial_fillsSlots _ _
  let s₀ : Solver Float := .fresh ⟨.avx2, 4⟩ model x y [0.0, 1.0] settings
  have hnew : Solver.new ⟨.avx2, 4⟩ model x y [0.0, 1.0] settings = .ok s₀ :=
    Solver.new_eq_fresh (by decide +kernel) (by decide +kernel) (by decide +kernel)
      (List.cons_ne_nil _ _) (by decide +kernel)
  obtain ⟨⟨reports, s⟩, hserve⟩ : ∃ r, s₀.serve [.fit] = .ok r :=
    exists_of_isOk (by decide +kernel)
  obtain ⟨hs, htask⟩ : s.Ready ∧ s₀.SharesTask s :=
    (show s₀.Ready from Solver.ready_fresh (by decide +kernel) (by decide +kernel)).serve hserve
  have hsource : s.sourceLength = 5 := htask.sourceLength
  have hcount : s.parameters.length = 2 := hs.counted.trans (by rw [htask.model]; rfl)
  obtain ⟨s', hload⟩ : ∃ s', s.reload y' [0.5, 0.5] = .ok s' :=
    ⟨_, Solver.reload_eq_ok_iff.mpr ⟨hsource.symm, hcount.symm, rfl⟩⟩
  obtain ⟨hcut, hbackends⟩ := Solver.fit_truncated .avx2 model x y [0.0, 1.0] settings
  obtain ⟨t₀, hnew', houtcome, -, hloaded⟩ := hcut 4 6 s₀ hnew (by decide +kernel)
  obtain ⟨t', ht', houtcome'⟩ :=
    hloaded [.fit] reports s y' [0.5, 0.5] s' (.inl hfill) hserve hload
  exact ⟨s₀, t₀, reports, s, s', t', hnew, hnew', houtcome, hserve, hload, ht', houtcome',
    hbackends (by decide +kernel)⟩

end Binary64

end CurveFit

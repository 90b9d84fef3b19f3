import CurveFit.Fit.Batch
import CurveFit.Proofs.Fit.Reuse

/-!
# Batches and the order of their turns

A worker that has fitted other series before reports on a series what a new solver reports
(`BatchTask.fitNext_agrees`).  So the reports of a batch are those on the single series, whichever
worker takes which series when: `fitBatchBy_eq_fitDataset`.
-/

namespace CurveFit

namespace BatchTask

variable {task : BatchTask}

/-! ## One turn -/

/-- The report on a series by a solver of its own. -/
def alone (task : BatchTask) (y : List Float) : Except Failure (FitReport Float) :=
  (task.fitNext none y).map Prod.fst

/-- A solver that a worker of the batch may hold: it was set up for the batch, whatever it has
fitted since. -/
structure Serves (task : BatchTask) (s : Solver Float) : Prop where
  ready : s.Ready
  origin : ∃ y s₀,
    Solver.new task.unit task.model task.x y task.initial task.settings = .ok s₀ ∧ s₀.SharesTask s

theorem Serves.fit {s t : Solver Float} (hs : task.Serves s) {report : FitReport Float}
    (hfit : s.fit = .ok (report, t)) : task.Serves t := by
  obtain ⟨hready, hshares⟩ := hs.ready.fit hfit
  obtain ⟨y, s₀, hnew, htask⟩ := hs.origin
  exact ⟨hready, y, s₀, hnew, htask.trans hshares.toSharesTask⟩

theorem serves_new {y : List Float} {s : Solver Float}
    (hnew : Solver.new task.unit task.model task.x y task.initial task.settings = .ok s) :
    task.Serves s := by
  obtain ⟨hlen, hcount, rfl⟩ := Solver.new_ok hnew
  exact ⟨Solver.ready_fresh hlen hcount, y, _, hnew, .refl _⟩

/-- **One series.**  A worker's solver reports what a new one reports, and fails as a new one
fails. -/
theorem fitNext_agrees (hfill : task.model.FillsSlots) {slot : Option (Solver Float)}
    (hslot : ∀ s, slot = some s → task.Serves s) (y : List Float) :
    Agree (fun p q => p.1 = q.1 ∧ task.Serves p.2) (task.fitNext slot y) (task.fitNext none y) := by
  unfold fitNext
  cases slot with
  | none =>
    cases hnew : Solver.new task.unit task.model task.x y task.initial task.settings with
    | error e => exact .error _
    | ok s =>
      show Agree _ (orFaulted s.fit) (orFaulted s.fit)
      cases hfit : s.fit with
      | error e => exact .error _
      | ok p => exact .ok ⟨rfl, (serves_new hnew).fit hfit⟩
  | some s =>
    have hs := hslot s rfl
    obtain ⟨y₀, s₀, hnew₀, htask⟩ := hs.origin
    obtain ⟨_, hcount, rfl⟩ := Solver.new_ok hnew₀
    have hsource : s.sourceLength = task.x.length := htask.sourceLength
    have hparameters : task.initial.length = s.parameters.length := by
      rw [hs.ready.counted, htask.model]
      exact hcount
    show Agree _ (orRefused (s.reload y task.initial) >>= fun s => orFaulted s.fit)
      (orRefused (Solver.new task.unit task.model task.x y task.initial task.settings) >>= fun s =>
        orFaulted s.fit)
    by_cases hy : y.length = task.x.length
    · have hlen := hy.trans hsource.symm
      rw [Solver.reload_eq_ok_iff.mpr ⟨hlen, hparameters, rfl⟩, Solver.new_of_new hnew₀ hy hcount]
      have htwins := hs.ready.twins_loaded htask hfill hy hcount
      have hloaded : task.Serves (s.loaded y task.initial) :=
        ⟨hs.ready.loaded hlen hparameters, y₀, _, hnew₀, htask.trans (.loaded s y task.initial)⟩
      refine (htwins.fit.remember.mapError Failure.faulted).mono ?_
      rintro p q ⟨⟨hreport, _⟩, hfit, _⟩
      exact ⟨hreport, hloaded.fit hfit⟩
    · rw [Solver.new_of_length_ne hnew₀ hy, Solver.reload_eq, if_pos (by rwa [hsource]), hsource]
      exact .error _

/-! ## All turns -/

/-- A batch under way whose workers hold solvers of the batch. -/
structure Sound (task : BatchTask) (n : Nat) (b : BatchState) : Prop where
  workers : ∀ p ∈ b.solvers, task.Serves p.2
  size : b.reports.size = n

theorem sound_before (n : Nat) : task.Sound n (before n) :=
  ⟨by simp [before], Array.size_replicate⟩

variable {ys : List (List Float)} {b b' : BatchState}

/-- A turn writes down the report that its series gets alone. -/
theorem takeTurn_agrees (hfill : task.model.FillsSlots) (hb : task.Sound ys.length b) {t : Turn}
    {y : List Float} (hy : ys[t.series]? = some y) :
    Agree (fun b' report => task.Sound ys.length b' ∧
        b'.reports = b.reports.setIfInBounds t.series (some report))
      (task.takeTurn ys b t) (task.alone y) := by
  have hslot : ∀ s, b.solvers.lookup t.worker = some s → task.Serves s := by
    intro s hs
    obtain ⟨l₁, l₂, hl, _⟩ := List.lookup_eq_some_iff.mp hs
    exact hb.workers (t.worker, s) (by rw [hl]; simp)
  unfold takeTurn alone
  rw [hy]
  refine (fitNext_agrees hfill hslot y).bind_map ?_
  rintro ⟨report, s⟩ ⟨_, s'⟩ ⟨rfl, hs⟩
  refine .ok ⟨⟨?_, ?_⟩, rfl⟩
  · intro p hp
    rcases List.mem_cons.mp hp with rfl | hp
    · exact hs
    · exact hb.workers p (List.mem_filter.mp hp).1
  · rw [Array.size_setIfInBounds]
    exact hb.size

/-- All turns write down the reports that their series get alone, and nothing else. -/
theorem foldlM_takeTurn_ok (hfill : task.model.FillsSlots) {turns : List Turn}
    (hb : task.Sound ys.length b) (hturns : ∀ t ∈ turns, t.series < ys.length)
    (h : turns.foldlM (task.takeTurn ys) b = .ok b') :
    task.Sound ys.length b' ∧
      (∀ t ∈ turns, ∃ y report, ys[t.series]? = some y ∧ task.alone y = .ok report ∧
        b'.reports[t.series]? = some (some report)) ∧
      ∀ i, (∀ t ∈ turns, t.series ≠ i) → b'.reports[i]? = b.reports[i]? := by
  induction turns generalizing b with
  | nil =>
    cases h
    exact ⟨hb, fun t ht => (List.not_mem_nil ht).elim, fun i _ => rfl⟩
  | cons t turns ih =>
    rw [List.foldlM_cons] at h
    obtain ⟨b₁, hturn, h⟩ := bind_eq_ok_iff.mp h
    have ht := hturns t List.mem_cons_self
    have hy : ys[t.series]? = some ys[t.series] := List.getElem?_eq_getElem ht
    have hagree := takeTurn_agrees hfill hb hy
    rw [hturn] at hagree
    obtain ⟨report, halone, hb₁, hreports⟩ := hagree.ok_left
    obtain ⟨hb', hwritten, hleft⟩ := ih hb₁ (fun t' ht' => hturns t' (List.mem_cons_of_mem _ ht')) h
    refine ⟨hb', ?_, ?_⟩
    · intro t' ht'
      by_cases hlater : ∃ u ∈ turns, u.series = t'.series
      · obtain ⟨u, hu, hseries⟩ := hlater
        rw [← hseries]
        exact hwritten u hu
      · -- the last turn of a series is the one that counts
        have hnone : ∀ u ∈ turns, u.series ≠ t'.series := fun u hu heq => hlater ⟨u, hu, heq⟩
        rcases List.mem_cons.mp ht' with rfl | ht'
        · refine ⟨_, report, hy, halone, ?_⟩
          rw [hleft _ hnone, hreports, Array.getElem?_setIfInBounds_self_of_lt (by rwa [hb.size])]
        · exact absurd rfl (hnone t' ht')
    · intro i hi
      have hne : t.series ≠ i := hi t List.mem_cons_self
      rw [hleft i fun t' ht' => hi t' (List.mem_cons_of_mem _ ht'), hreports,
        Array.getElem?_setIfInBounds_ne hne]

/-- A batch fails as one of its series does. -/
theorem foldlM_takeTurn_error (hfill : task.model.FillsSlots) {turns : List Turn}
    (hb : task.Sound ys.length b) (hturns : ∀ t ∈ turns, t.series < ys.length) {e : Failure}
    (h : turns.foldlM (task.takeTurn ys) b = .error e) : ∃ y ∈ ys, task.alone y = .error e := by
  induction turns generalizing b with
  | nil => cases h
  | cons t turns ih =>
    rw [List.foldlM_cons] at h
    have ht := hturns t List.mem_cons_self
    have hy : ys[t.series]? = some ys[t.series] := List.getElem?_eq_getElem ht
    have hagree := takeTurn_agrees hfill hb hy
    rcases bind_eq_error_iff.mp h with hturn | ⟨b₁, hturn, h⟩
    · rw [hturn] at hagree
      exact ⟨_, List.getElem_mem ht, hagree.error_left⟩
    · rw [hturn] at hagree
      obtain ⟨_, _, hb₁, _⟩ := hagree.ok_left
      exact ih hb₁ (fun t' ht' => hturns t' (List.mem_cons_of_mem _ ht')) h

/-! ## The whole batch -/

theorem map_eq_of_reports {f : List Float → Except Failure (FitReport Float)}
    {slots : List (Option (FitReport Float))} (hlen : slots.length = ys.length)
    (h : ∀ (i : Nat) y, ys[i]? = some y → ∃ report, f y = .ok report ∧ slots[i]? = some (some report)) :
    ys.map f = (slots.filterMap id).map .ok := by
  induction ys generalizing slots with
  | nil =>
    rw [List.eq_nil_of_length_eq_zero hlen]
    rfl
  | cons y ys ih =>
    cases slots with
    | nil => cases hlen
    | cons slot slots =>
      obtain ⟨report, hreport, hslot⟩ := h 0 y rfl
      cases Option.some.inj hslot
      have hrest := ih (Nat.succ.inj hlen) fun i y' hy' => h (i + 1) y' hy'
      rw [List.map_cons, hreport, hrest]
      rfl

/-- Every series is taken once. -/
def Covers (turns : List Turn) (n : Nat) : Prop := (turns.map (·.series)).Perm (List.range n)

variable {turns : List Turn}

theorem Covers.lt {n : Nat} (hturns : Covers turns n) : ∀ t ∈ turns, t.series < n := by
  intro t ht
  exact List.mem_range.mp (hturns.mem_iff.mp (List.mem_map_of_mem ht))

theorem Covers.exists_turn {n i : Nat} (hturns : Covers turns n) (hi : i < n) :
    ∃ t ∈ turns, t.series = i :=
  List.mem_map.mp (hturns.mem_iff.mpr (List.mem_range.mpr hi))

/-- The reports of a batch are those on the single series. -/
theorem run_ok (hfill : task.model.FillsSlots) (hturns : Covers turns ys.length)
    {reports : List (FitReport Float)} (h : task.run ys turns = .ok reports) :
    ys.map task.alone = reports.map .ok := by
  obtain ⟨b, hfold, h⟩ := bind_eq_ok_iff.mp h
  cases h
  obtain ⟨hb, hwritten, _⟩ :=
    foldlM_takeTurn_ok hfill (sound_before ys.length) hturns.lt hfold
  apply map_eq_of_reports
  · rw [Array.length_toList, hb.size]
  · intro i y hy
    obtain ⟨t, ht, rfl⟩ := hturns.exists_turn (List.getElem?_eq_some_iff.mp hy).1
    obtain ⟨y', report, hy', halone, hreport⟩ := hwritten t ht
    cases hy.symm.trans hy'
    exact ⟨report, halone, by rw [Array.getElem?_toList, hreport]⟩

theorem run_error (hfill : task.model.FillsSlots) (hturns : Covers turns ys.length) {e : Failure}
    (h : task.run ys turns = .error e) : ∃ y ∈ ys, task.alone y = .error e := by
  rcases bind_eq_error_iff.mp h with h | ⟨_, _, h⟩
  · exact foldlM_takeTurn_error hfill (sound_before ys.length) hturns.lt h
  · cases h

end BatchTask

section Whole

variable {turns : List Turn} {model : Model Float} {x initial : List Float}
  {ys : List (List Float)} {settings : FitSettings}

theorem fitWithBackend_eq_alone (b : Backend) (y : List Float) :
    fitWithBackend b model x y initial settings =
      BatchTask.alone ⟨b.unit, model, x, initial, settings⟩ y := by
  show (orRefused (Solver.new b.unit model x y initial settings) >>= _) =
    Except.map Prod.fst (orRefused (Solver.new b.unit model x y initial settings) >>= _)
  cases Solver.new b.unit model x y initial settings with
  | error e => rfl
  | ok s =>
    show (orFaulted s.fit >>= _) = Except.map Prod.fst (orFaulted s.fit)
    cases s.fit with
    | error e => rfl
    | ok p => rfl

/-- Fitting a dataset is fitting its series alone on the selected backend. -/
theorem fitDataset_eq_alone (y : List Float) :
    fitDataset model x y initial settings =
      (BatchTask.alone ⟨(selectBackend x.length settings).unit, model, x, initial, settings⟩ y).map
        fun report => (selectBackend x.length settings, report) := by
  show (fitWithBackend (selectBackend x.length settings) model x y initial settings >>= _) = _
  rw [fitWithBackend_eq_alone]
  cases BatchTask.alone ⟨(selectBackend x.length settings).unit, model, x, initial, settings⟩ y with
  | error e => rfl
  | ok report => rfl

/-- **Batches.**  Let the workers take the series in any way that takes each of them once.  The
batch succeeds exactly when every series can be fitted alone; its reports are then those on the
single series, in their order and with the same backend; and a failure of the batch is the failure
of a single series. -/
theorem fitBatchBy_eq_fitDataset (hfill : model.FillsSlots)
    (hturns : BatchTask.Covers turns ys.length) :
    ((∃ r, fitBatchBy turns model x ys initial settings = .ok r) ↔
      ∀ y ∈ ys, ∃ r, fitDataset model x y initial settings = .ok r) ∧
    (∀ b reports, fitBatchBy turns model x ys initial settings = .ok (b, reports) →
      ys.map (fitDataset model x · initial settings) = reports.map fun report => .ok (b, report)) ∧
    (∀ e, fitBatchBy turns model x ys initial settings = .error e →
      ∃ y ∈ ys, fitDataset model x y initial settings = .error e) := by
  have hok : ∀ b reports, fitBatchBy turns model x ys initial settings = .ok (b, reports) →
      ys.map (fitDataset model x · initial settings) =
        reports.map fun report => .ok (b, report) := by
    intro b reports h
    obtain ⟨_, hrun, h⟩ := bind_eq_ok_iff.mp h
    cases h
    let pair := fun report : FitReport Float => (selectBackend x.length settings, report)
    let task : BatchTask := ⟨(selectBackend x.length settings).unit, model, x, initial, settings⟩
    calc ys.map (fitDataset model x · initial settings)
        = (ys.map task.alone).map (Except.map pair) := by
          rw [List.map_map]
          exact List.map_congr_left fun y _ => fitDataset_eq_alone y
      _ = (reports.map .ok).map (Except.map pair) := by
          rw [BatchTask.run_ok hfill hturns hrun]
      _ = reports.map fun report => .ok (pair report) := by
          rw [List.map_map]
          rfl
  have herror : ∀ e, fitBatchBy turns model x ys initial settings = .error e →
      ∃ y ∈ ys, fitDataset model x y initial settings = .error e := by
    intro e h
    rcases bind_eq_error_iff.mp h with h | ⟨_, _, h⟩
    · obtain ⟨y, hy, halone⟩ := BatchTask.run_error hfill hturns h
      refine ⟨y, hy, ?_⟩
      rw [fitDataset_eq_alone, halone]
      rfl
    · cases h
  refine ⟨⟨?_, ?_⟩, hok, herror⟩
  · rintro ⟨⟨b, reports⟩, h⟩ y hy
    have hmem : fitDataset model x y initial settings ∈
        ys.map (fitDataset model x · initial settings) := List.mem_map_of_mem hy
    rw [hok b reports h] at hmem
    obtain ⟨report, _, hreport⟩ := List.mem_map.mp hmem
    exact ⟨_, hreport.symm⟩
  · intro hall
    cases h : fitBatchBy turns model x ys initial settings with
    | ok r => exact ⟨r, rfl⟩
    | error e =>
      obtain ⟨y, hy, hfail⟩ := herror e h
      obtain ⟨r, hr⟩ := hall y hy
      rw [hfail] at hr
      cases hr

/-- Two workers: one takes the third series and then the second, the other takes the first. -/
theorem fitBatchBy_eq_fitDataset_two_workers :
    let turns : List Turn := [⟨1, 2⟩, ⟨0, 0⟩, ⟨1, 1⟩]
    let model : Model Float := .polynomial [0.0, 1.0] [.nonNegative]
    let x : List Float := [1.0, 2.0, 3.0]
    let ys : List (List Float) := [[1.0, 0.5, 4.0], [2.0, 1.0, 0.0], [0.0, 0.5, 1.0]]
    let settings := { FitSettings.default with maxIterations := 1 }
    model.FillsSlots ∧ BatchTask.Covers turns ys.length ∧
      ∃ b reports, fitBatchBy turns model x ys [0.0, 1.0] settings = .ok (b, reports) ∧
        ys.map (fitDataset model x · [0.0, 1.0] settings) =
          reports.map fun report => .ok (b, report) := by
  intro turns model x ys settings
  have hfill : model.FillsSlots := Model.polynomial_fillsSlots _ _
  have hcovers : BatchTask.Covers turns ys.length := by
    show List.Perm [2, 0, 1] [0, 1, 2]
    decide
  obtain ⟨⟨b, reports⟩, hbatch⟩ : ∃ r, fitBatchBy turns model x ys [0.0, 1.0] settings = .ok r :=
    exists_of_isOk (by decide +kernel)
  have hreports := (fitBatchBy_eq_fitDataset hfill hcovers).2.1 b reports hbatch
  exact ⟨hfill, hcovers, b, reports, hbatch, hreports⟩

end Whole

end CurveFit

import CurveFit.Fit.Dataset
import CurveFit.Proofs.Fit.Passes

/-!
# Setting up and loading a solver

`Solver.start_eq_ok_iff` and `Solver.reload_eq_ok_iff` say when a solver is set up and when it takes
other observations, and give the solver that results: `Solver.fresh` and `Solver.loaded`.  Both are
ready.
-/

namespace CurveFit

open LaneVector

variable {α : Type}

namespace Solver

section Start

variable [OfNat α 0]

/-- The number of points that a unit keeps of a dataset. -/
def keptPoints (u : VectorUnit) (x : List α) : Nat := min x.length u.capacity

/-- A solver that has not run yet. -/
def fresh (u : VectorUnit) (model : Model α) (x y initial : List α) (settings : Settings α) :
    Solver α :=
  { unit := u
    model := model
    settings := settings
    sourceLength := x.length
    x := x.take (keptPoints u x)
    y := ofLanes (y.take (keptPoints u x))
    workspace := .setUp (ofLanes (List.replicate (keptPoints u x) 0)) model.parameterCount initial
    parameters := initial
    lambda := settings.initialLambda
    trace := #[] }

variable {u : VectorUnit} {model : Model α} {x y initial : List α} {settings : Settings α}

theorem points_fresh : (fresh u model x y initial settings).points = keptPoints u x := by
  show (x.take _).length = _
  rw [List.length_take]
  exact Nat.min_eq_left (Nat.min_le_left _ _)

theorem ready_fresh (hlen : x.length = y.length) (hcount : initial.length = model.parameterCount) :
    (fresh u model x y initial settings).Ready := by
  have hy : (y.take (keptPoints u x)).length = keptPoints u x := by
    rw [List.length_take, ← hlen]
    exact Nat.min_eq_left (Nat.min_le_left _ _)
  constructor
  · exact points_fresh
  · rw [points_fresh]
    exact .of_length hy
  · exact hcount
  · rw [points_fresh]
    exact Workspace.setUp_fits hcount

variable [OfNat α 1] [Add α] [Mul α] [LE α] [DecidableLE α] [FitScalar α]

/-- The checks that a new solver has to pass, in their order. -/
theorem start_eq : start u model x y initial settings =
    if x.length ≠ y.length then .error (.lengthMismatch x.length y.length)
    else if initial.length ≠ model.parameterCount then
      .error (.parameterCount model.parameterCount initial.length)
    else if x.isEmpty then .error .emptyDataset
    else if !withinCapacity x.length u.capacity settings.truncateRatio then
      .error (.capacityExceeded x.length u.capacity)
    else .ok (fresh u model x y initial settings) := by
  have hzeros : u.zeros (keptPoints u x) = .ok (ofLanes (List.replicate (keptPoints u x) (0 : α))) :=
    VectorUnit.zeros_eq_ok (Nat.min_le_right _ _)
  have hlist : u.ofList (y.take (keptPoints u x)) = .ok (ofLanes (y.take (keptPoints u x))) := by
    apply VectorUnit.ofList_eq_ok
    rw [List.length_take]
    exact Nat.le_trans (Nat.min_le_left _ _) (Nat.min_le_right _ _)
  unfold start
  split
  · rfl
  split
  · rfl
  split
  · rfl
  split
  · rfl
  show Except.bind (u.zeros (keptPoints u x)) _ = _
  rw [hzeros]
  show Except.bind (u.ofList (y.take (keptPoints u x))) _ = _
  rw [hlist]
  rfl

/-- When a solver is set up, and which one. -/
theorem start_eq_ok_iff {s : Solver α} :
    start u model x y initial settings = .ok s ↔
      x.length = y.length ∧ initial.length = model.parameterCount ∧ x ≠ [] ∧
        withinCapacity x.length u.capacity settings.truncateRatio ∧
          fresh u model x y initial settings = s := by
  rw [start_eq]
  by_cases hlen : x.length = y.length
  · rw [if_neg (fun h => h hlen)]
    by_cases hcount : initial.length = model.parameterCount
    · rw [if_neg (fun h => h hcount)]
      by_cases hempty : x = []
      · simp [hempty]
      · by_cases hwithin : withinCapacity x.length u.capacity settings.truncateRatio = true
        · simp [hlen, hcount, hempty, hlen ▸ hwithin]
        · simp [hempty, hwithin]
    · simp [hcount]
  · simp [hlen]

end Start

/-- The solver with other observations over its points, before it runs. -/
def loaded (s : Solver α) (y initial : List α) : Solver α :=
  { s with
    y := s.y.write (y.take s.points)
    workspace := { s.workspace with trial := initial }
    parameters := initial
    lambda := s.settings.initialLambda
    trace := #[] }

variable {s t : Solver α} {y initial : List α}

theorem reload_eq : s.reload y initial =
    if y.length ≠ s.sourceLength then .error (.lengthMismatch s.sourceLength y.length)
    else if initial.length ≠ s.parameters.length then
      .error (.parameterCount s.parameters.length initial.length)
    else .ok (s.loaded y initial) := by
  unfold reload
  split
  · rfl
  split
  · rfl
  rfl

/-- A change of the solver that loading does not see can be made before it or after. -/
theorem reload_comm {f : Solver α → Solver α} (hlen : (f s).sourceLength = s.sourceLength)
    (hcount : (f s).parameters.length = s.parameters.length)
    (hloaded : (f s).loaded y initial = f (s.loaded y initial)) :
    (f s).reload y initial = (s.reload y initial).map f := by
  rw [reload_eq, reload_eq, hlen, hcount, hloaded]
  split
  · rfl
  split
  · rfl
  · rfl

/-- When a solver takes other observations, and what becomes of it. -/
theorem reload_eq_ok_iff :
    s.reload y initial = .ok t ↔
      y.length = s.sourceLength ∧ initial.length = s.parameters.length ∧ s.loaded y initial = t := by
  rw [reload_eq]
  by_cases hlen : y.length = s.sourceLength <;>
    by_cases hcount : initial.length = s.parameters.length <;> simp [hlen, hcount]

theorem reload_eq_error_iff :
    (∃ e, s.reload y initial = .error e) ↔
      y.length ≠ s.sourceLength ∨ initial.length ≠ s.parameters.length := by
  rw [reload_eq]
  by_cases hlen : y.length = s.sourceLength <;>
    by_cases hcount : initial.length = s.parameters.length <;> simp [hlen, hcount]

theorem SharesTask.loaded (s : Solver α) (y initial : List α) :
    s.SharesTask (s.loaded y initial) :=
  ⟨rfl, rfl, rfl, rfl, rfl⟩

variable [OfNat α 0]

/-- The observations of a loaded solver are those given, cut to its points. -/
theorem y_loaded (hs : s.Ready) (hlen : y.length = s.sourceLength) :
    (s.loaded y initial).y = ofLanes (y.take s.points) := by
  apply hs.observed.write
  rw [List.length_take, hlen, hs.points]
  exact Nat.min_eq_left (Nat.min_le_left _ _)

theorem Ready.loaded (hs : s.Ready) (hlen : y.length = s.sourceLength)
    (hcount : initial.length = s.parameters.length) : (s.loaded y initial).Ready where
  points := hs.points
  observed := by
    rw [y_loaded hs hlen]
    apply HasLanes.of_length
    show _ = s.points
    rw [List.length_take, hlen, hs.points]
    exact Nat.min_eq_left (Nat.min_le_left _ _)
  counted := hcount.trans hs.counted
  fits := { hs.fits with trial := hcount.trans hs.counted }

end Solver

/-! ## Solvers in binary64 -/

theorem FitSettings.validate_eq_ok_iff {settings : FitSettings} :
    settings.validate = .ok () ↔ settings.issue? = none := by
  unfold FitSettings.validate
  cases settings.issue? <;> simp

namespace Solver

variable {u : VectorUnit} {model : Model Float} {x y₀ init₀ y initial : List Float}
  {settings : FitSettings} {s : Solver Float}

/-- Settings with an issue set up no solver; others leave the checks to the start. -/
theorem new_eq_ok_iff :
    Solver.new u model x y initial settings = .ok s ↔
      settings.issue? = none ∧ Solver.start u model x y initial settings = .ok s := by
  unfold Solver.new
  rw [bind_eq_ok_iff, ← FitSettings.validate_eq_ok_iff]
  constructor
  · rintro ⟨_, hvalid, h⟩
    exact ⟨hvalid, h⟩
  · rintro ⟨hvalid, h⟩
    exact ⟨(), hvalid, h⟩

/-- A new solver is the fresh one. -/
theorem new_ok (hnew : Solver.new u model x y initial settings = .ok s) :
    x.length = y.length ∧ initial.length = model.parameterCount ∧
      fresh u model x y initial settings = s := by
  obtain ⟨_, hstart⟩ := new_eq_ok_iff.mp hnew
  obtain ⟨hlen, hcount, _, _, hs⟩ := start_eq_ok_iff.mp hstart
  exact ⟨hlen, hcount, hs⟩

theorem new_eq_fresh (hvalid : settings.issue? = none) (hlen : x.length = y.length)
    (hcount : initial.length = model.parameterCount) (hempty : x ≠ [])
    (hwithin : withinCapacity x.length u.capacity settings.truncateRatio) :
    Solver.new u model x y initial settings = .ok (fresh u model x y initial settings) :=
  new_eq_ok_iff.mpr ⟨hvalid, start_eq_ok_iff.mpr ⟨hlen, hcount, hempty, hwithin, rfl⟩⟩

/-- A new solver for other observations exists whenever one for the first observations did. -/
theorem new_of_new (hnew : Solver.new u model x y₀ init₀ settings = .ok s)
    (hy : y.length = x.length) (hcount : initial.length = model.parameterCount) :
    Solver.new u model x y initial settings = .ok (fresh u model x y initial settings) := by
  obtain ⟨hvalid, hstart⟩ := new_eq_ok_iff.mp hnew
  obtain ⟨_, _, hempty, hwithin, _⟩ := start_eq_ok_iff.mp hstart
  exact new_eq_fresh hvalid hy.symm hcount hempty hwithin

/-- Observations of another number are refused for their number. -/
theorem new_of_length_ne (hnew : Solver.new u model x y₀ init₀ settings = .ok s)
    (hy : y.length ≠ x.length) :
    Solver.new u model x y initial settings = .error (.lengthMismatch x.length y.length) := by
  obtain ⟨hvalid, _⟩ := new_eq_ok_iff.mp hnew
  unfold Solver.new
  rw [FitSettings.validate_eq_ok_iff.mpr hvalid]
  show start u model x y initial settings = _
  rw [start_eq, if_pos hy.symm]

end Solver

end CurveFit

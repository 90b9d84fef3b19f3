import CurveFit.Model.Library
import CurveFit.Model.Shapes
import CurveFit.Proofs.Lanes.Padded
import CurveFit.Proofs.Steps

/-!
# Rows of derivatives and the slots they fill

One buffer serves the derivative rows of all points, so a row that leaves a slot out would show
what the buffer held before.  A model that fills its slots (`Model.FillsSlots`) never does:
`derivativeRows_eq_map`.  The built-in models fill theirs (`ModelKind.model_fillsSlots`).  Rows that
leave out the same slots at every point can be written again (`derivativeRows_getLastD`).
-/

namespace CurveFit

variable {α : Type}

theorem length_writeRow {buffer row r : List α} (h : writeRow buffer row = .ok r) :
    r.length = buffer.length := by
  unfold writeRow at h
  by_cases hle : row.length ≤ buffer.length
  · rw [if_pos hle] at h
    cases h
    exact length_overwrite buffer row
  · rw [if_neg hle] at h
    cases h

/-- There is a row for every point, and each is as long as the buffer. -/
theorem length_derivativeRows {d : α → List α} {x : List α} {buffer : List α}
    {rows : List (List α)} (h : derivativeRows d buffer x = .ok rows) :
    rows.length = x.length ∧ ∀ r ∈ rows, r.length = buffer.length := by
  induction x generalizing buffer rows with
  | nil =>
    cases h
    exact ⟨rfl, fun r hr => nomatch hr⟩
  | cons x rest ih =>
    obtain ⟨row, hrow, h⟩ := bind_eq_ok_iff.mp h
    obtain ⟨rows', hrows, h⟩ := bind_eq_ok_iff.mp h
    cases h
    have hlen := length_writeRow hrow
    obtain ⟨hcount, hall⟩ := ih hrows
    refine ⟨by rw [List.length_cons, List.length_cons, hcount], ?_⟩
    intro r hr
    rcases List.mem_cons.mp hr with rfl | hr
    · exact hlen
    · exact (hall r hr).trans hlen

/-- The last row, or the buffer where there are no points, is as long as the buffer. -/
theorem length_getLastD {d : α → List α} {buffer x : List α} {rows : List (List α)}
    (hrows : derivativeRows d buffer x = .ok rows) :
    (rows.getLastD buffer).length = buffer.length := by
  rw [List.getLastD_eq_getLast?]
  cases hl : rows.getLast? with
  | none => rfl
  | some r => exact (length_derivativeRows hrows).2 r (List.mem_of_getLast? hl)

/-- Rows that fill the buffer owe nothing to it. -/
theorem derivativeRows_eq_map {d : α → List α} {p : Nat} (hd : ∀ x, (d x).length = p) {x : List α}
    {buffer : List α} (hb : buffer.length = p) : derivativeRows d buffer x = .ok (x.map d) := by
  induction x generalizing buffer with
  | nil => rfl
  | cons x rest ih =>
    have hlen : (d x).length = buffer.length := (hd x).trans hb.symm
    have hrow : writeRow buffer (d x) = .ok (d x) := by
      unfold writeRow
      rw [if_pos (Nat.le_of_eq hlen), overwrite_of_length_eq hlen]
    rw [derivativeRows, hrow]
    show Except.bind (derivativeRows d (d x) rest) _ = _
    rw [ih (hd x)]
    rfl

/-- A row leaves the slots behind it alone. -/
theorem drop_writeRow {buffer row r : List α} (h : writeRow buffer row = .ok r) :
    r.drop row.length = buffer.drop row.length := by
  unfold writeRow overwrite at h
  by_cases hle : row.length ≤ buffer.length
  · rw [if_pos hle, List.take_of_length_le hle] at h
    cases h
    exact List.drop_left
  · rw [if_neg hle] at h
    cases h

/-- What a row comes to depends on the slots behind it. -/
theorem writeRow_congr {buffer buffer' row : List α} (hlen : buffer'.length = buffer.length)
    (hdrop : buffer'.drop row.length = buffer.drop row.length) :
    writeRow buffer' row = writeRow buffer row := by
  unfold writeRow overwrite
  rw [hlen, hdrop]

theorem drop_getLastD {d : α → List α} {p : Nat} (hd : ∀ x, (d x).length = p) {x : List α}
    {buffer : List α} {rows : List (List α)} (h : derivativeRows d buffer x = .ok rows) :
    (rows.getLastD buffer).drop p = buffer.drop p := by
  induction x generalizing buffer rows with
  | nil =>
    cases h
    rfl
  | cons x rest ih =>
    obtain ⟨row, hrow, h⟩ := bind_eq_ok_iff.mp h
    obtain ⟨rows', hrows, h⟩ := bind_eq_ok_iff.mp h
    cases h
    have hfirst := drop_writeRow hrow
    rw [hd] at hfirst
    rw [List.getLastD_cons]
    exact (ih hrows).trans hfirst

/-- Rows that are written once more, after the last of them, come out as before. -/
theorem derivativeRows_getLastD {d : α → List α} (hd : ∀ x x', (d x).length = (d x').length)
    {x buffer : List α} {rows : List (List α)} (h : derivativeRows d buffer x = .ok rows) :
    derivativeRows d (rows.getLastD buffer) x = .ok rows := by
  rw [← h]
  cases x with
  | nil => rfl
  | cons x rest =>
    rw [derivativeRows, derivativeRows, writeRow_congr (length_getLastD h)
      (drop_getLastD (fun x' => hd x' x) h)]

/-- One slot of every row. -/
def slotLanes [OfNat α 0] (rows : List (List α)) (j : Nat) : List α := rows.map fun row => row.getD j 0

/-- What is asked of a model: it writes every slot of the derivative rows, whatever the values. -/
def Model.FillsSlots (m : Model α) : Prop :=
  ∀ values d, values.length = m.parameterCount → m.slopes? values = some d →
    ∀ x, (d x).length = m.parameterCount

/-- What is asked of a model that may leave slots out: it leaves out the same ones at every point. -/
def Model.WritesEvenly (m : Model α) : Prop :=
  ∀ values d, values.length = m.parameterCount → m.slopes? values = some d →
    ∀ x x', (d x).length = (d x').length

theorem Model.curve_of_some {m : Model α} {values : List α} {f : α → α}
    (h : m.curve? values = some f) : m.curve values = .ok f := by
  unfold Model.curve
  rw [h]

theorem Model.slopes_of_some {m : Model α} {values : List α} {d : α → List α}
    (h : m.slopes? values = some d) : m.slopes values = .ok d := by
  unfold Model.slopes
  rw [h]

/-! ## Models that fill their slots -/

section BuiltIn

variable [OfNat α 1] [OfNat α 2] [Add α] [Sub α] [Mul α] [Div α] [Neg α] [ExpScalar α]

omit [Add α] in
theorem ModelKind.length_slopes {kind : ModelKind} {values : List α} {d : α → List α}
    (h : kind.slopes? values = some d) (x : α) : (d x).length = kind.parameterCount := by
  cases kind with
  | linear =>
    cases h
    rfl
  | exponential =>
    match values, h with
    | _ :: _ :: _, h =>
      cases h
      rfl
  | gaussian =>
    match values, h with
    | _ :: _ :: _ :: _, h =>
      cases h
      rfl
  | biExponential =>
    match values, h with
    | _ :: _ :: _ :: _ :: _, h =>
      cases h
      rfl

/-- A model of a kind has the parameters and the functions of its kind. -/
theorem ModelKind.functions_of_model {kind : ModelKind} {initial : List α} {m : Model α}
    (h : kind.model initial = .ok m) :
    m.parameterCount = kind.parameterCount ∧ m.curve? = kind.curve? ∧ m.slopes? = kind.slopes? := by
  unfold ModelKind.model at h
  by_cases hlen : initial.length = kind.parameterCount
  · rw [if_pos hlen] at h
    cases h
    refine ⟨?_, rfl, rfl⟩
    show (List.zipWith _ kind.signature initial).length = kind.parameterCount
    rw [List.length_zipWith, hlen]
    exact Nat.min_self _
  · rw [if_neg hlen] at h
    cases h

/-- The built-in models leave no slot out. -/
theorem ModelKind.model_fillsSlots {kind : ModelKind} {initial : List α} {m : Model α}
    (h : kind.model initial = .ok m) : m.FillsSlots := by
  obtain ⟨hcount, -, hslopes⟩ := ModelKind.functions_of_model h
  intro values d _ hd x
  rw [hslopes] at hd
  exact (ModelKind.length_slopes hd x).trans hcount.symm

end BuiltIn

section Polynomial

variable [OfNat α 0] [OfNat α 1] [Add α] [Mul α]

omit [OfNat α 0] [OfNat α 1] [Add α] in
theorem length_powers (x : α) (n : Nat) (t : α) : (powers x n t).length = n := by
  induction n generalizing t with
  | zero => rfl
  | succ n ih =>
    show (powers x n (t * x)).length + 1 = n + 1
    rw [ih]

/-- Polynomials leave no slot out. -/
theorem Model.polynomial_fillsSlots (initial : List α) (constraints : List Constraint) :
    (Model.polynomial initial constraints).FillsSlots := by
  intro values d _ hd x
  cases hd
  show (powers x initial.length 1).length = (initial.mapIdx _).length
  rw [length_powers, List.length_mapIdx]

end Polynomial

end CurveFit

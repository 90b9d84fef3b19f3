import CurveFit.Proofs.Linear.Entries
import Mathlib.Algebra.BigOperators.Fin
import Mathlib.Data.Fintype.BigOperators
import Mathlib.Data.Matrix.Mul
import Mathlib.Order.Interval.Finset.Fin

/-!
# Elimination over a field

The entries of a square system are `coeff` and `target`.  In any arithmetic, clearing a column leaves
alone the rows down to the pivot and those whose factor is zero (`row_clearColumn`), and an unknown is
zero where its pivot is (`get_substitute_of_pivot`).  Over a field, clearing a column subtracts a
multiple of one row from the rows below it, and nothing where the pivot is zero, as a quotient by zero
is zero (`coeff_clearColumn`, `target_clearColumn`).

* `eliminate_induction`: what every clearing preserves holds of the eliminated system;
* `pivot_reached`: a pivot keeps the value that elimination finds it with;
* `solves_of_clearColumn`: where the pivot's row is zero before its diagonal, no solution is lost;
* `substitute_spec`: back substitution solves every row with a non-zero pivot, puts zero where the
  pivot is zero, and counts the zero pivots.
-/

namespace CurveFit

namespace SquareSystem

open Matrix

variable {α : Type} {n : ℕ}

/-- The coefficients. -/
def coeff (s : SquareSystem α n) : Matrix (Fin n) (Fin n) α := fun i j => (s.matrix.get i).get j

/-- The right-hand side. -/
def target (s : SquareSystem α n) : Fin n → α := fun i => s.rhs.get i

/-! ## Elimination in any arithmetic -/

theorem get_set (x : Vector α n) (k c : Fin n) (v : α) :
    (x.set k v k.isLt).get c = if c = k then v else x.get c := by
  by_cases h : c = k
  · subst h
    rw [if_pos rfl]
    exact Vector.getElem_set_self c.isLt
  · rw [if_neg h]
    exact Vector.getElem_set_ne k.isLt c.isLt fun h' => h (Fin.ext h'.symm)

/-- Steps that write one value at one place, and leave that place alone otherwise, leave it there. -/
theorem get_foldr_of_mem {step : Fin n → Vector α n × ℕ → Vector α n × ℕ} {j : Fin n} {v : α}
    (hstep : ∀ k r, (step k r).1.get j = if k = j then v else r.1.get j) {l : List (Fin n)}
    (hl : j ∈ l) (r : Vector α n × ℕ) : (l.foldr step r).1.get j = v := by
  induction l with
  | nil => cases hl
  | cons k l ih =>
    rw [List.foldr_cons, hstep]
    by_cases hk : k = j
    · exact if_pos hk
    · rw [if_neg hk]
      exact ih ((List.mem_cons.mp hl).resolve_left (Ne.symm hk))

section Arithmetic

variable [OfNat α 0] [Sub α] [Mul α] [Div α] [BEq α]

theorem clearColumn_of_pivot (s : SquareSystem α n) {k : Fin n} (h : (s.coeff k k == 0) = true) :
    s.clearColumn k = s := if_pos h

/-- Clearing a column leaves the rows down to the pivot alone, and those whose factor is zero. -/
theorem row_clearColumn (s : SquareSystem α n) {i k : Fin n}
    (h : i ≤ k ∨ (s.coeff i k / s.coeff k k == 0) = true) :
    (s.clearColumn k).matrix.get i = s.matrix.get i := by
  by_cases hpivot : (s.coeff k k == 0) = true
  · rw [s.clearColumn_of_pivot hpivot]
  · unfold clearColumn
    refine (congrArg (fun t : SquareSystem α n => t.matrix.get i) (if_neg hpivot)).trans ?_
    refine (get_ofFn ..).trans ?_
    by_cases hle : i ≤ k
    · exact if_pos hle
    · exact (if_neg hle).trans (if_pos (h.resolve_left hle))

/-- The system as elimination reaches column `k`. -/
def reached (s : SquareSystem α n) (k : ℕ) : SquareSystem α n :=
  ((List.finRange n).take k).foldl clearColumn s

theorem reached_succ (s : SquareSystem α n) (k : Fin n) :
    s.reached (k + 1) = (s.reached k).clearColumn k := by
  have hlen : (k : ℕ) < (List.finRange n).length := by rw [List.length_finRange]; exact k.isLt
  unfold reached
  rw [List.take_succ_eq_append_getElem hlen, List.foldl_append, List.getElem_finRange]
  rfl

theorem reached_all (s : SquareSystem α n) : s.reached n = s.eliminate := by
  unfold reached eliminate
  rw [List.take_of_length_le (by rw [List.length_finRange])]

/-- What every clearing preserves, column after column, holds of the eliminated system. -/
theorem eliminate_induction {P : ℕ → SquareSystem α n → Prop} {s : SquareSystem α n}
    (start : P 0 s) (step : ∀ (k : Fin n) (t : SquareSystem α n), P k t → P (k + 1) (t.clearColumn k)) :
    P n s.eliminate := by
  have hreached : ∀ m ≤ n, P m (s.reached m) := by
    intro m
    induction m with
    | zero =>
      intro _
      exact start
    | succ m ih =>
      intro hm
      rw [s.reached_succ ⟨m, hm⟩]
      exact step ⟨m, hm⟩ _ (ih (Nat.le_of_succ_le hm))
  rw [← s.reached_all]
  exact hreached n le_rfl

/-- A pivot keeps the value that elimination finds it with. -/
theorem pivot_reached (s : SquareSystem α n) (k : Fin n) :
    (s.reached k).coeff k k = s.eliminate.coeff k k := by
  have hrow : ∀ m : ℕ, k ≤ m → m ≤ n → (s.reached m).matrix.get k = (s.reached k).matrix.get k := by
    intro m hkm
    induction m, hkm using Nat.le_induction with
    | base =>
      intro _
      rfl
    | succ m hkm ih =>
      intro hm
      rw [s.reached_succ ⟨m, hm⟩, row_clearColumn _ (.inl hkm)]
      exact ih (Nat.le_of_succ_le hm)
  rw [← s.reached_all]
  unfold coeff
  rw [hrow n k.isLt.le le_rfl]

/-- Where the pivot is zero, so is the unknown. -/
theorem get_substitute_of_pivot {s : SquareSystem α n} {j : Fin n}
    (h : (s.coeff j j == 0) = true) : s.substitute.1.get j = 0 := by
  refine get_foldr_of_mem (fun k r => ?_) (List.mem_finRange j) _
  by_cases hk : k = j
  · subst hk
    rw [if_pos rfl]
    refine (congrArg (fun r : Vector α n × ℕ => r.1.get k) (if_pos h)).trans ?_
    rw [get_set, if_pos rfl]
  · rw [if_neg hk]
    by_cases hpivot : ((s.matrix.get k).get k == 0) = true
    · refine (congrArg (fun r : Vector α n × ℕ => r.1.get j) (if_pos hpivot)).trans ?_
      rw [get_set, if_neg (Ne.symm hk)]
    · refine (congrArg (fun r : Vector α n × ℕ => r.1.get j) (if_neg hpivot)).trans ?_
      rw [get_set, if_neg (Ne.symm hk)]

end Arithmetic

variable [Field α] [DecidableEq α]

/-! ## Forward elimination -/

section Forward

variable (s : SquareSystem α n) (k : Fin n)

theorem clearColumn_of_eq_zero (hpivot : s.coeff k k = 0) : s.clearColumn k = s :=
  s.clearColumn_of_pivot (beq_iff_eq.mpr hpivot)

theorem clearColumn_of_ne_zero (hpivot : s.coeff k k ≠ 0) : s.clearColumn k =
    { matrix := Vector.ofFn fun i =>
        if i ≤ k then s.matrix.get i
        else if s.coeff i k / s.coeff k k == 0 then s.matrix.get i
        else Vector.ofFn fun j =>
          if j < k then s.coeff i j else s.coeff i j - s.coeff i k / s.coeff k k * s.coeff k j
      rhs := Vector.ofFn fun i =>
        if i ≤ k then s.target i
        else if s.coeff i k / s.coeff k k == 0 then s.target i
        else s.target i - s.coeff i k / s.coeff k k * s.target k } :=
  if_neg fun h => hpivot (beq_iff_eq.mp h)

theorem coeff_clearColumn (i j : Fin n) : (s.clearColumn k).coeff i j =
    if k < i ∧ k ≤ j then s.coeff i j - s.coeff i k / s.coeff k k * s.coeff k j
    else s.coeff i j := by
  by_cases hpivot : s.coeff k k = 0
  · rw [s.clearColumn_of_eq_zero k hpivot, hpivot, div_zero, zero_mul, sub_zero, ite_self]
  · rw [s.clearColumn_of_ne_zero k hpivot]
    show Vector.get (Vector.get (Vector.ofFn _) i) j = _
    rw [get_ofFn]
    by_cases hi : i ≤ k
    · rw [if_pos hi, if_neg fun h => absurd h.1 (not_lt.mpr hi)]
      rfl
    · rw [if_neg hi]
      by_cases hfactor : s.coeff i k / s.coeff k k = 0
      · rw [if_pos (beq_iff_eq.mpr hfactor), hfactor, zero_mul, sub_zero, ite_self]
        rfl
      · rw [if_neg fun h => hfactor (beq_iff_eq.mp h), get_ofFn]
        by_cases hj : j < k
        · rw [if_pos hj, if_neg fun h => absurd h.2 (not_le.mpr hj)]
        · rw [if_neg hj, if_pos ⟨not_le.mp hi, not_lt.mp hj⟩]

theorem target_clearColumn (i : Fin n) : (s.clearColumn k).target i =
    if k < i then s.target i - s.coeff i k / s.coeff k k * s.target k else s.target i := by
  by_cases hpivot : s.coeff k k = 0
  · rw [s.clearColumn_of_eq_zero k hpivot, hpivot, div_zero, zero_mul, sub_zero, ite_self]
  · rw [s.clearColumn_of_ne_zero k hpivot]
    show Vector.get (Vector.ofFn _) i = _
    rw [get_ofFn]
    by_cases hi : i ≤ k
    · rw [if_pos hi, if_neg (not_lt.mpr hi)]
    · rw [if_neg hi, if_pos (not_le.mp hi)]
      by_cases hfactor : s.coeff i k / s.coeff k k = 0
      · rw [if_pos (beq_iff_eq.mpr hfactor), hfactor, zero_mul, sub_zero]
      · rw [if_neg fun h => hfactor (beq_iff_eq.mp h)]

variable {s k}

/-! Where row `k` is zero before its diagonal, clearing column `k` takes whole rows away. -/

theorem coeff_clearColumn_of_row (hrow : ∀ j < k, s.coeff k j = 0) (i j : Fin n) :
    (s.clearColumn k).coeff i j =
      if k < i then s.coeff i j - s.coeff i k / s.coeff k k * s.coeff k j else s.coeff i j := by
  rw [coeff_clearColumn]
  by_cases hi : k < i
  · by_cases hj : k ≤ j
    · rw [if_pos ⟨hi, hj⟩, if_pos hi]
    · rw [if_neg fun hij => hj hij.2, if_pos hi, hrow j (not_le.mp hj), mul_zero, sub_zero]
  · rw [if_neg fun hij => hi hij.1, if_neg hi]

theorem mulVec_clearColumn (hrow : ∀ j < k, s.coeff k j = 0) (v : Fin n → α) (i : Fin n) :
    ((s.clearColumn k).coeff *ᵥ v) i =
      if k < i then (s.coeff *ᵥ v) i - s.coeff i k / s.coeff k k * (s.coeff *ᵥ v) k
      else (s.coeff *ᵥ v) i := by
  unfold mulVec dotProduct
  simp only [coeff_clearColumn_of_row hrow]
  by_cases hi : k < i
  · simp only [if_pos hi, sub_mul, mul_assoc, Finset.sum_sub_distrib, ← Finset.mul_sum]
  · simp only [if_neg hi]

/-- Clearing a column then keeps the solutions. -/
theorem solves_of_clearColumn (hrow : ∀ j < k, s.coeff k j = 0) {x : Fin n → α}
    (hx : (s.clearColumn k).coeff *ᵥ x = (s.clearColumn k).target) : s.coeff *ᵥ x = s.target := by
  have hrows : ∀ i, ((s.clearColumn k).coeff *ᵥ x) i = (s.clearColumn k).target i := congrFun hx
  simp only [mulVec_clearColumn hrow, target_clearColumn] at hrows
  have hk : (s.coeff *ᵥ x) k = s.target k := by
    have hself := hrows k
    rwa [if_neg (lt_irrefl k), if_neg (lt_irrefl k)] at hself
  funext i
  have hi := hrows i
  by_cases hki : k < i
  · rw [if_pos hki, if_pos hki, hk] at hi
    exact sub_left_injective hi
  · rwa [if_neg hki, if_neg hki] at hi

end Forward

/-! ## Back substitution -/

section Backward

variable {s : SquareSystem α n}

omit [DecidableEq α] in
theorem unknown_eq (x : Vector α n) (k : Fin n) :
    s.unknown x k = (x.get k - ∑ c ∈ Finset.Ioi k, s.coeff k c * x.get c) / s.coeff k k := by
  have hfold : ∀ (l : List (Fin n)) (f : Fin n → α) (a : α),
      l.foldl (fun acc c => acc - f c) a = a - (l.map f).sum := by
    intro l f
    induction l with
    | nil => intro a; simp
    | cons c l ih =>
      intro a
      rw [List.foldl_cons, ih, List.map_cons, List.sum_cons, sub_sub]
  have hlater : ((List.finRange n).filter fun c => k < c).toFinset = Finset.Ioi k := by
    ext c
    simp
  have hnodup : ((List.finRange n).filter fun c => k < c).Nodup :=
    (List.nodup_finRange n).filter _
  unfold unknown
  show List.foldl (fun acc c => acc - s.coeff k c * x.get c) (x.get k) _ / s.coeff k k = _
  rw [hfold, ← List.sum_toFinset _ hnodup, hlater]

/-- Back substitution at one unknown. -/
def substituteAt (s : SquareSystem α n) (k : Fin n) (r : Vector α n × ℕ) : Vector α n × ℕ :=
  if s.coeff k k = 0 then (r.1.set k 0 k.isLt, r.2 + 1)
  else (r.1.set k (s.unknown r.1 k) k.isLt, r.2)

theorem substitute_eq : s.substitute = (List.finRange n).foldr s.substituteAt (s.rhs, 0) := by
  have hstep : (fun k (r : Vector α n × ℕ) =>
      if (s.matrix.get k).get k == 0 then (r.1.set k 0, r.2 + 1)
      else (r.1.set k (s.unknown r.1 k), r.2)) = s.substituteAt := by
    funext k r
    unfold substituteAt
    by_cases hpivot : s.coeff k k = 0
    · rw [if_pos hpivot]
      exact if_pos (beq_iff_eq.mpr hpivot)
    · rw [if_neg hpivot]
      exact if_neg fun h => hpivot (beq_iff_eq.mp h)
  unfold substitute
  rw [← hstep]

/-- The unknowns from `m` on are known: they solve their rows, or are zero where the pivot is. -/
structure SolvedFrom (s : SquareSystem α n) (m : ℕ) (r : Vector α n × ℕ) : Prop where
  early : ∀ c : Fin n, c < m → r.1.get c = s.target c
  dropped : ∀ k : Fin n, m ≤ k → s.coeff k k = 0 → r.1.get k = 0
  row : ∀ k : Fin n, m ≤ k → s.coeff k k ≠ 0 →
    s.coeff k k * r.1.get k + ∑ c ∈ Finset.Ioi k, s.coeff k c * r.1.get c = s.target k
  count : r.2 = (Finset.univ.filter fun k : Fin n => m ≤ k ∧ s.coeff k k = 0).card

theorem substituteAt_fst (k : Fin n) (r : Vector α n × ℕ) :
    (s.substituteAt k r).1.get = Function.update r.1.get k
      (if s.coeff k k = 0 then 0 else s.unknown r.1 k) := by
  funext c
  unfold substituteAt
  by_cases hpivot : s.coeff k k = 0
  · rw [if_pos hpivot, if_pos hpivot, Function.update_apply]
    exact get_set ..
  · rw [if_neg hpivot, if_neg hpivot, Function.update_apply]
    exact get_set ..

/-- The zero pivots from `m` on. -/
theorem zeroPivotsFrom_eq {m : ℕ} (hm : m < n) :
    (Finset.univ.filter fun i : Fin n => m ≤ i ∧ s.coeff i i = 0).card =
      (Finset.univ.filter fun i : Fin n => m + 1 ≤ i ∧ s.coeff i i = 0).card +
        if s.coeff ⟨m, hm⟩ ⟨m, hm⟩ = 0 then 1 else 0 := by
  let later := Finset.univ.filter fun i : Fin n => m + 1 ≤ i ∧ s.coeff i i = 0
  by_cases hpivot : s.coeff ⟨m, hm⟩ ⟨m, hm⟩ = 0
  · have hsplit : (Finset.univ.filter fun i : Fin n => m ≤ i ∧ s.coeff i i = 0) =
        insert ⟨m, hm⟩ later := by
      ext i
      simp only [later, Finset.mem_filter, Finset.mem_univ, true_and, Finset.mem_insert]
      constructor
      · rintro ⟨hi, hzero⟩
        by_cases him : (i : ℕ) = m
        · exact .inl (Fin.ext him)
        · exact .inr ⟨by omega, hzero⟩
      · rintro (rfl | ⟨hi, hzero⟩)
        · exact ⟨le_rfl, hpivot⟩
        · exact ⟨by omega, hzero⟩
    have hnot : (⟨m, hm⟩ : Fin n) ∉ later := by
      simp [later]
    rw [hsplit, Finset.card_insert_of_notMem hnot, if_pos hpivot]
  · have hsame : (Finset.univ.filter fun i : Fin n => m ≤ i ∧ s.coeff i i = 0) = later := by
      apply Finset.filter_congr
      intro i _
      constructor
      · rintro ⟨hi, hzero⟩
        have him : (i : ℕ) ≠ m := fun h => hpivot (by rwa [← show i = ⟨m, hm⟩ from Fin.ext h])
        exact ⟨by omega, hzero⟩
      · rintro ⟨hi, hzero⟩
        exact ⟨by omega, hzero⟩
    rw [hsame, if_neg hpivot]
    rfl

/-- One more unknown is known after its step, and the later ones stay as they are. -/
theorem SolvedFrom.substituteAt {m : ℕ} (hm : m < n) {r : Vector α n × ℕ}
    (h : s.SolvedFrom (m + 1) r) : s.SolvedFrom m (s.substituteAt ⟨m, hm⟩ r) := by
  let k : Fin n := ⟨m, hm⟩
  have hlater : ∀ c : Fin n, m + 1 ≤ c → (s.substituteAt k r).1.get c = r.1.get c := by
    intro c hc
    rw [substituteAt_fst, Function.update_of_ne (Fin.ne_of_gt hc)]
  have hsum : ∀ i : Fin n, m ≤ i → ∑ c ∈ Finset.Ioi i, s.coeff i c * (s.substituteAt k r).1.get c =
      ∑ c ∈ Finset.Ioi i, s.coeff i c * r.1.get c := by
    intro i hi
    refine Finset.sum_congr rfl fun c hc => ?_
    have hic : (i : ℕ) < c := Fin.lt_def.mp (Finset.mem_Ioi.mp hc)
    rw [hlater c (by omega)]
  have hcases : ∀ i : Fin n, m ≤ i → i = k ∨ m + 1 ≤ i := by
    intro i hi
    by_cases hik : (i : ℕ) = m
    · exact .inl (Fin.ext hik)
    · exact .inr (by omega)
  refine ⟨?_, ?_, ?_, ?_⟩
  · intro c hc
    rw [substituteAt_fst, Function.update_of_ne (Fin.ne_of_lt hc)]
    exact h.early c (by omega)
  · intro i hi hpivot
    rcases hcases i hi with rfl | hi'
    · rw [substituteAt_fst, Function.update_self, if_pos hpivot]
    · rw [hlater i hi']
      exact h.dropped i hi' hpivot
  · intro i hi hpivot
    rw [hsum i hi]
    rcases hcases i hi with rfl | hi'
    · rw [substituteAt_fst, Function.update_self, if_neg hpivot, unknown_eq,
        mul_div_cancel₀ _ hpivot, h.early k (Nat.lt_succ_self m), sub_add_cancel]
    · rw [hlater i hi']
      exact h.row i hi' hpivot
  · rw [zeroPivotsFrom_eq hm]
    unfold SquareSystem.substituteAt
    by_cases hpivot : s.coeff k k = 0
    · rw [if_pos hpivot, if_pos hpivot, h.count]
    · rw [if_neg hpivot, if_neg hpivot, h.count]
      rfl

/-- **Back substitution** solves every row with a non-zero pivot, puts zero where the pivot is zero,
and counts the zero pivots. -/
theorem substitute_spec (s : SquareSystem α n) : s.SolvedFrom 0 s.substitute := by
  -- the last unknown is found first, so the induction is on how many are known
  have hsuffix : ∀ d ≤ n, s.SolvedFrom (n - d)
      (((List.finRange n).drop (n - d)).foldr s.substituteAt (s.rhs, 0)) := by
    intro d
    induction d with
    | zero =>
      intro _
      rw [Nat.sub_zero, List.drop_of_length_le (by rw [List.length_finRange])]
      refine ⟨fun c _ => rfl, fun k hk => ?_, fun k hk => ?_, ?_⟩
      · exact absurd k.isLt (not_lt.mpr hk)
      · exact absurd k.isLt (not_lt.mpr hk)
      · have hnone : (Finset.univ.filter fun k : Fin n => n ≤ k ∧ s.coeff k k = 0) = ∅ :=
          Finset.filter_eq_empty_iff.mpr fun k _ hk => absurd k.isLt (not_lt.mpr hk.1)
        rw [hnone]
        rfl
    | succ d ih =>
      intro hd
      have hm : n - (d + 1) < n := by omega
      have hlen : n - (d + 1) < (List.finRange n).length := by rwa [List.length_finRange]
      rw [List.drop_eq_getElem_cons hlen, List.foldr_cons, List.getElem_finRange]
      have hnext : n - (d + 1) + 1 = n - d := by omega
      have hrest := ih (by omega)
      rw [← hnext] at hrest
      exact hrest.substituteAt hm
  have hall := hsuffix n le_rfl
  rw [Nat.sub_self, List.drop_zero, ← substitute_eq] at hall
  exact hall

/-- Back substitution solves a row with a non-zero pivot that is zero before its diagonal. -/
theorem substitute_solves_row {k : Fin n} (hrow : ∀ j < k, s.coeff k j = 0)
    (hpivot : s.coeff k k ≠ 0) : (s.coeff *ᵥ s.substitute.1.get) k = s.target k := by
  have htail : ∑ j, s.coeff k j * s.substitute.1.get j =
      ∑ j ∈ Finset.Ici k, s.coeff k j * s.substitute.1.get j := by
    refine (Finset.sum_subset (Finset.subset_univ _) fun j _ hj => ?_).symm
    have hjk : j < k := not_le.mp fun hkj => hj (Finset.mem_Ici.mpr hkj)
    rw [hrow j hjk, zero_mul]
  show ∑ j, s.coeff k j * s.substitute.1.get j = s.target k
  rw [htail, ← Finset.Ioi_insert, Finset.sum_insert Finset.notMem_Ioi_self]
  exact s.substitute_spec.row k (Nat.zero_le _) hpivot

end Backward

end SquareSystem

end CurveFit

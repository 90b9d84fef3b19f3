import CurveFit.Proofs.Binary64.Special
import CurveFit.Proofs.Binary64.Words

/-!
# Places of even grids

A grid puts places at growing distances from its lower end.  There are two ways to compute a distance:
the step times the number of the place (`stepDistance`), and the share of the place in the width
(`shareDistance`).  If the width of the range is a finite number, the distances start with none and
never decrease in either way, though they may become infinite (`Rising`); then the places never
decrease, and the last one tells whether all of them are finite.  If the width is infinite, no place
is finite (`Collapsed`).
-/

namespace CurveFit

open Binary64

variable {low high : Float} {n i j : ℕ} {distance : ℕ → Float}

/-- A sum with a zero is the number itself, or another zero. -/
theorem Binary64.add_isZero {a b : Float} (ha : a.isFinite) (hb : IsZero b) :
    a + b = a ∨ IsZero a ∧ IsZero (a + b) := by
  rcases finite_cases ha with hzero | ⟨s, m, e, hm, hu⟩
  · exact .inr ⟨hzero, hzero.add hb⟩
  obtain ⟨t, ht⟩ := hb
  have hstored : Stored (.finite s m e hm) := hu ▸ stored_unpack _
  have hsum : (a + b).toModel.unpack = a.toModel.unpack := by
    show Float.Model.UnpackedFloat.unpack _ (Float.Model.UnpackedFloat.pack _
      (Float.Model.UnpackedFloat.add _ a.toModel.unpack b.toModel.unpack)) = _
    rw [hu, ht]
    exact (unpack_pack hstored.canonical).trans hstored.settled_eq
  have hfinite : (a + b).isFinite := by
    show (a + b).toModel.unpack.isFinite
    rw [hsum]
    exact ha
  exact .inl (eq_of_parts_eq (by rw [parts_eq hfinite, parts_eq ha, hsum]))

/-! ## Places -/

/-- The places at given distances from the first end. -/
def places (low : Float) (distance : ℕ → Float) (n : ℕ) : List Float :=
  (List.range n).map fun i => low + distance i

theorem length_places : (places low distance n).length = n := by
  rw [places, List.length_map, List.length_range]

theorem head?_places (hn : 0 < n) : (places low distance n).head? = some (low + distance 0) := by
  rw [places, List.head?_map, List.head?_range, if_neg hn.ne']
  rfl

theorem getLast?_places (hn : 0 < n) :
    (places low distance n).getLast? = some (low + distance (n - 1)) := by
  rw [places, List.getLast?_map, List.getLast?_range, if_neg hn.ne']
  rfl

/-- Distances that start with none and never decrease. -/
structure Rising (n : ℕ) (distance : ℕ → Float) : Prop where
  zero : IsZero (distance 0)
  mono : ∀ {i j}, i ≤ j → j < n → distance i ≤ distance j

namespace Rising

variable (h : Rising n distance) (hlow : low.isFinite)

include h

theorem nonneg (hi : i < n) : 0 ≤ distance i := by
  obtain ⟨s, hs⟩ := h.zero
  have hzero : (0 : Float) ≤ distance 0 :=
    le_iff_value.mpr ⟨rfl, isNaN_of_isFinite h.zero.isFinite, by unfold value; rw [hs]; exact le_rfl⟩
  exact Binary64.le_trans hzero (h.mono (Nat.zero_le i) hi)

theorem isInfinity (hi : i < n) (hinfinite : ¬ (distance i).isFinite) : IsInfinity (distance i) :=
  isInfinity_of_le isZero_zero.isFinite (h.nonneg hi) hinfinite

include hlow

theorem isNaN_place (hi : i < n) : (low + distance i).isNaN = false := by
  by_cases hfinite : (distance i).isFinite
  · exact (add_isRounded hlow hfinite).isNaN
  · exact (IsInfinity.add hlow (h.isInfinity hi hfinite)).isNaN

/-- **Places** at distances that never decrease do not decrease either. -/
theorem place_le (hij : i ≤ j) (hj : j < n) : low + distance i ≤ low + distance j := by
  by_cases hfinite : (distance j).isFinite
  · have hi : i < n := hij.trans_lt hj
    have hle := h.mono hij hj
    have hfinite' := isFinite_of_le isZero_zero.isFinite hfinite (h.nonneg hi) hle
    exact (add_isRounded hlow hfinite').mono (add_isRounded hlow hfinite)
      (add_le_add_right (value_mono hle) _)
  · exact le_isInfinity (h.isNaN_place hlow (hij.trans_lt hj))
      (IsInfinity.add hlow (h.isInfinity hj hfinite))

theorem le_place (hi : i < n) : low ≤ low + distance i := by
  have hfirst : low ≤ low + distance 0 :=
    le_add_of_nonneg hlow h.zero.isFinite (value_mono (h.nonneg (by omega)))
  exact Binary64.le_trans hfirst (h.place_le hlow (Nat.zero_le i) hi)

/-- A finite last place has only finite places before it. -/
theorem isFinite_place (hlast : (low + distance (n - 1)).isFinite) (hi : i < n) :
    (low + distance i).isFinite :=
  isFinite_of_le hlow hlast (h.le_place hlow hi) (h.place_le hlow (by omega) (by omega))

theorem pairwise_places : (places low distance n).Pairwise (· ≤ ·) := by
  refine List.pairwise_map.mpr (List.pairwise_lt_range.imp_of_mem fun {i j} _ hj hij => ?_)
  exact h.place_le hlow hij.le (List.mem_range.mp hj)

end Rising

/-- Distances none of which is finite: the first is not a number and the others are infinite. -/
structure Collapsed (n : ℕ) (distance : ℕ → Float) : Prop where
  isNaN : (distance 0).isNaN
  isInfinity : ∀ i, 0 < i → i < n → IsInfinity (distance i)

theorem Collapsed.places_eq (h : Collapsed n distance) (hlow : low.isFinite) (hn : 0 < n) :
    ∃ first rest, places low distance n = first :: rest ∧ first.isNaN ∧
      ∀ v ∈ rest, IsInfinity v := by
  obtain ⟨n, rfl⟩ := Nat.exists_eq_add_of_lt hn
  refine ⟨low + distance 0, (List.range n).map fun i => low + distance (i + 1), ?_,
    isNaN_add_right h.isNaN, List.forall_mem_map.mpr fun i hi => ?_⟩
  · rw [places, Nat.zero_add, List.range_succ_eq_map, List.map_cons, List.map_map]
    rfl
  · have hi := List.mem_range.mp hi
    exact IsInfinity.add hlow (h.isInfinity (i + 1) (by omega) (by omega))

/-! ## Grids -/

/-- What is asked of an even grid: it has its number of places, they are finite and never decrease,
and the first one is the lower end, where a zero may change its sign. -/
structure EvenGrid (low : Float) (n : ℕ) (grid : List Float) : Prop where
  length : grid.length = n
  isFinite : ∀ v ∈ grid, v.isFinite
  starts : ∃ first ∈ grid.head?, first = low ∨ IsZero low ∧ IsZero first
  ascending : grid.Pairwise (· ≤ ·)

namespace EvenGrid

variable {grid : List Float} {first last : Float}

theorem singleton (hlow : low.isFinite) : EvenGrid low 1 [low] :=
  ⟨rfl, List.forall_mem_singleton.mpr hlow, ⟨low, rfl, .inl rfl⟩, List.pairwise_singleton _ _⟩

theorem between (h : EvenGrid low n grid) (hfirst : grid.head? = some first)
    (hlast : grid.getLast? = some last) : ∀ v ∈ grid, first ≤ v ∧ v ≤ last := by
  intro v hv
  have hrefl := le_refl (isNaN_of_isFinite (h.isFinite v hv))
  obtain ⟨rest, hrest⟩ := List.head?_eq_some_iff.mp hfirst
  obtain ⟨init, hinit⟩ := List.getLast?_eq_some_iff.mp hlast
  constructor
  · obtain rfl | hv := List.mem_cons.mp (hrest ▸ hv)
    · exact hrefl
    · exact List.rel_of_pairwise_cons (hrest ▸ h.ascending) hv
  · obtain hv | hv := List.mem_append.mp (hinit ▸ hv)
    · exact (List.pairwise_append.mp (hinit ▸ h.ascending)).2.2 v hv last (List.mem_singleton_self _)
    · rwa [List.mem_singleton.mp hv] at hrefl ⊢

end EvenGrid

/-- What becomes of a grid over a range.  The last place tells whether it is an even one.  Across a
finite width it starts at the lower end and never decreases in any case; across an infinite one the
first place is not a number and the others are infinite. -/
structure GridOutcome (low high : Float) (n : ℕ) (grid : List Float) : Prop where
  length : grid.length = n
  even_iff : EvenGrid low n grid ↔ ∃ last ∈ grid.getLast?, last.isFinite
  starts : (high - low).isFinite → ∃ first ∈ grid.head?, first = low ∨ IsZero low ∧ IsZero first
  ascending : (high - low).isFinite → grid.Pairwise (· ≤ ·)
  collapses : ¬ (high - low).isFinite →
    ∃ first rest, grid = first :: rest ∧ first.isNaN ∧ ∀ v ∈ rest, IsInfinity v

/-- Places at distances that rise across a finite width and collapse across an infinite one. -/
theorem gridOutcome_places (hlow : low.isFinite) (hn : 1 < n)
    (hrising : (high - low).isFinite → Rising n distance)
    (hcollapsed : ¬ (high - low).isFinite → Collapsed n distance) :
    GridOutcome low high n (places low distance n) := by
  have hfirst : (places low distance n).head? = some (low + distance 0) :=
    head?_places (Nat.zero_lt_of_lt hn)
  have hlast : (places low distance n).getLast? = some (low + distance (n - 1)) :=
    getLast?_places (Nat.zero_lt_of_lt hn)
  have hstarts (hwidth : (high - low).isFinite) :
      ∃ first ∈ (places low distance n).head?, first = low ∨ IsZero low ∧ IsZero first :=
    ⟨_, hfirst, add_isZero hlow (hrising hwidth).zero⟩
  refine ⟨length_places, ⟨fun h => ?_, ?_⟩, hstarts,
    fun hwidth => (hrising hwidth).pairwise_places hlow,
    fun hwidth => (hcollapsed hwidth).places_eq hlow (Nat.zero_lt_of_lt hn)⟩
  · exact ⟨_, hlast, h.isFinite _ (List.mem_of_getLast? hlast)⟩
  · rintro ⟨last, hlast', hfinite⟩
    obtain rfl : low + distance (n - 1) = last := Option.some.inj (hlast.symm.trans hlast')
    by_cases hwidth : (high - low).isFinite
    · refine ⟨length_places, List.forall_mem_map.mpr fun i hi => ?_, hstarts hwidth,
        (hrising hwidth).pairwise_places hlow⟩
      exact (hrising hwidth).isFinite_place hlow hfinite (List.mem_range.mp hi)
    · have hinfinite := (hcollapsed hwidth).isInfinity (n - 1) (by omega) (by omega)
      exact absurd hfinite (IsInfinity.add hlow hinfinite).not_isFinite

/-! ## Distances in a range -/

/-- The step times the number of the place. -/
def stepDistance (low high : Float) (n i : ℕ) : Float :=
  (high - low) / Float.ofNat (n - 1) * Float.ofNat i

/-- The share of the place in the width. -/
def shareDistance (low high : Float) (n i : ℕ) : Float :=
  (high - low) * Float.ofNat i / Float.ofNat (n - 1)

/-- A range with finite ends in order, and at least two places, as many as a word can count. -/
structure GridRange (low high : Float) (n : ℕ) : Prop where
  isFinite_low : low.isFinite
  isFinite_high : high.isFinite
  ascending : low < high
  two_le : 2 ≤ n
  lt_words : n < 2 ^ 64

namespace GridRange

variable (h : GridRange low high n)

include h

theorem isFinite_ofNat (hi : i ≤ n) : (Float.ofNat i).isFinite :=
  (abs_value_ofNat_le (k := 64) (by norm_num) (hi.trans h.lt_words.le)).1

theorem one_le_count : 1 ≤ value (Float.ofNat (n - 1)) :=
  one_le_value_ofNat (by have := h.two_le; omega)

/-- The width is at least zero, and infinite at worst. -/
theorem zero_le_width : 0 ≤ high - low :=
  (sub_isRounded h.isFinite_high h.isFinite_low).nonneg
    (sub_nonneg.mpr (lt_iff_value.mp h.ascending).2.2.le)

theorem isInfinity_width (hwidth : ¬ (high - low).isFinite) : IsInfinity (high - low) :=
  isInfinity_of_le isZero_zero.isFinite h.zero_le_width hwidth

/-- A finite width is divided by a finite number. -/
theorem step_isRounded (hwidth : (high - low).isFinite) :
    IsRounded ((high - low) / Float.ofNat (n - 1))
      (value (high - low) / value (Float.ofNat (n - 1))) :=
  div_isRounded hwidth (h.isFinite_ofNat (Nat.sub_le n 1)) (one_pos.trans_le h.one_le_count).ne'

theorem step_isFinite (hwidth : (high - low).isFinite) :
    ((high - low) / Float.ofNat (n - 1)).isFinite ∧ 0 ≤ (high - low) / Float.ofNat (n - 1) := by
  have hvalue : 0 ≤ value (high - low) := value_mono h.zero_le_width
  have hstep : 0 ≤ (high - low) / Float.ofNat (n - 1) :=
    (h.step_isRounded hwidth).nonneg (div_nonneg hvalue (zero_le_one.trans h.one_le_count))
  have hle := div_le_of_one_le hwidth hvalue (h.isFinite_ofNat (Nat.sub_le n 1)) h.one_le_count
  exact ⟨isFinite_of_le isZero_zero.isFinite hwidth hstep hle, hstep⟩

/-- **Steps** across a finite width. -/
theorem rising_stepDistance (hwidth : (high - low).isFinite) :
    Rising n (stepDistance low high n) := by
  obtain ⟨hstep, hnonneg⟩ := h.step_isFinite hwidth
  refine ⟨isZero_zero.mul_left hstep, fun {i j} hij hj => ?_⟩
  exact (mul_isRounded hstep (h.isFinite_ofNat (hij.trans hj.le))).mono
    (mul_isRounded hstep (h.isFinite_ofNat hj.le))
    (mul_le_mul_of_nonneg_left (value_mono (ofNat_mono hij)) (value_mono hnonneg))

theorem collapsed_stepDistance (hwidth : ¬ (high - low).isFinite) :
    Collapsed n (stepDistance low high n) := by
  have hstep := (h.isInfinity_width hwidth).div (one_pos.trans_le h.one_le_count)
    (h.isFinite_ofNat (Nat.sub_le n 1))
  exact ⟨hstep.mul_isZero isZero_zero,
    fun i hi _ => hstep.mul (one_pos.trans_le (one_le_value_ofNat hi))⟩

/-- **Shares** of a finite width, the larger of which may not be numbers of the format. -/
theorem rising_shareDistance (hwidth : (high - low).isFinite) :
    Rising n (shareDistance low high n) := by
  have hcount := h.isFinite_ofNat (Nat.sub_le n 1)
  have hpos := one_pos.trans_le h.one_le_count
  have hnonneg : 0 ≤ value (high - low) := value_mono h.zero_le_width
  have hproduct {k : ℕ} (hk : k < n) := mul_isRounded hwidth (h.isFinite_ofNat hk.le)
  have hproducts {k m : ℕ} (hkm : k ≤ m) (hm : m < n) :
      (high - low) * Float.ofNat k ≤ (high - low) * Float.ofNat m :=
    (hproduct (hkm.trans_lt hm)).mono (hproduct hm)
      (mul_le_mul_of_nonneg_left (value_mono (ofNat_mono hkm)) hnonneg)
  have hproduct₀ {k : ℕ} (hk : k < n) : 0 ≤ (high - low) * Float.ofNat k :=
    (hproduct hk).nonneg (mul_nonneg hnonneg (value_mono (ofNat_nonneg k)))
  have hinfinite {k : ℕ} (hk : k < n) (hk' : ¬ ((high - low) * Float.ofNat k).isFinite) :
      IsInfinity (shareDistance low high n k) :=
    (isInfinity_of_le isZero_zero.isFinite (hproduct₀ hk) hk').div hpos hcount
  refine ⟨(isZero_zero.mul_left hwidth).div ?_ (isNaN_of_isFinite hcount), fun {i j} hij hj => ?_⟩
  · exact fun hzero => not_beq_zero hpos (beq_zero_iff.mpr hzero)
  by_cases hfinite : ((high - low) * Float.ofNat j).isFinite
  · have hfinite' := isFinite_of_le isZero_zero.isFinite hfinite (hproduct₀ (hij.trans_lt hj))
      (hproducts hij hj)
    exact (div_isRounded hfinite' hcount hpos.ne').mono (div_isRounded hfinite hcount hpos.ne')
      (div_le_div_of_nonneg_right (value_mono (hproducts hij hj)) hpos.le)
  · refine le_isInfinity ?_ (hinfinite hj hfinite)
    by_cases hfinite' : ((high - low) * Float.ofNat i).isFinite
    · exact (div_isRounded hfinite' hcount hpos.ne').isNaN
    · exact (hinfinite (hij.trans_lt hj) hfinite').isNaN

theorem collapsed_shareDistance (hwidth : ¬ (high - low).isFinite) :
    Collapsed n (shareDistance low high n) := by
  have hinfinite := h.isInfinity_width hwidth
  exact ⟨isNaN_div (hinfinite.mul_isZero isZero_zero),
    fun i hi _ => (hinfinite.mul (one_pos.trans_le (one_le_value_ofNat hi))).div
      (one_pos.trans_le h.one_le_count) (h.isFinite_ofNat (Nat.sub_le n 1))⟩

/-- What becomes of a grid of steps. -/
theorem steps_outcome : GridOutcome low high n (places low (stepDistance low high n) n) :=
  gridOutcome_places h.isFinite_low h.two_le h.rising_stepDistance h.collapsed_stepDistance

/-- What becomes of a grid of shares. -/
theorem shares_outcome : GridOutcome low high n (places low (shareDistance low high n) n) :=
  gridOutcome_places h.isFinite_low h.two_le h.rising_shareDistance h.collapsed_shareDistance

/-! ## Ranges that are not too wide -/

/-- The last of the steps is not much further than the width. -/
theorem value_step_mul_le (hwidth : (high - low).isFinite) :
    |value ((high - low) / Float.ofNat (n - 1)) * value (Float.ofNat (n - 1))| ≤
      2 * value (high - low) + 2 ^ 64 := by
  set width := value (high - low)
  set count := value (Float.ofNat (n - 1))
  have hwidth₀ : 0 ≤ width := value_mono h.zero_le_width
  have hcount₀ : 0 < count := one_pos.trans_le h.one_le_count
  have hcount : count ≤ 2 ^ 64 := (le_abs_self count).trans
    (abs_value_ofNat_le (by norm_num) ((Nat.sub_le _ _).trans h.lt_words.le)).2
  obtain ⟨hstep, hnonneg⟩ := h.step_isFinite hwidth
  have hvalue : value ((high - low) / Float.ofNat (n - 1)) ≤ 2 * (width / count) + 1 := by
    rw [(h.step_isRounded hwidth).value_of_isFinite hstep]
    exact rounded_le_two_mul_add_one (div_nonneg hwidth₀ hcount₀.le)
  rw [abs_of_nonneg (mul_nonneg (value_mono hnonneg) hcount₀.le)]
  calc value ((high - low) / Float.ofNat (n - 1)) * count
      ≤ (2 * (width / count) + 1) * count := mul_le_mul_of_nonneg_right hvalue hcount₀.le
    _ = 2 * width + count := by field_simp
    _ ≤ 2 * width + 2 ^ 64 := add_le_add_right hcount _

/-- The width of a range is at most twice as large as its ends. -/
theorem abs_width_le {k : ℤ} (hk : -1075 ≤ k) (hk' : k < 1023) (hlow : |value low| ≤ 2 ^ k)
    (hhigh : |value high| ≤ 2 ^ k) :
    (high - low).isFinite ∧ |value (high - low)| ≤ 2 ^ (k + 1) := by
  refine (sub_isRounded h.isFinite_high h.isFinite_low).abs_value_le (by omega) (by omega) ?_
  rw [zpow_add_one₀ two_ne_zero]
  linarith only [abs_sub (value high) (value low), hlow, hhigh]

/-- **Steps** between ends that are not too large. -/
theorem isFinite_step_of_small (hlow : |value low| ≤ 2 ^ (1019 : ℤ))
    (hhigh : |value high| ≤ 2 ^ (1019 : ℤ)) :
    (low + stepDistance low high n (n - 1)).isFinite := by
  obtain ⟨M, hM⟩ : ∃ M : ℚ, (2 : ℚ) ^ (1019 : ℤ) = M := ⟨_, rfl⟩
  have hpow (n : ℕ) : (2 : ℚ) ^ (1019 + n : ℤ) = M * 2 ^ n := by
    rw [zpow_add₀ two_ne_zero, hM, zpow_natCast]
  have h1020 : (2 : ℚ) ^ (1019 + 1 : ℤ) = M * 2 ^ 1 := hpow 1
  have h1022 : (2 : ℚ) ^ (1022 : ℤ) = M * 2 ^ 3 := hpow 3
  have h1023 : (2 : ℚ) ^ (1023 : ℤ) = M * 2 ^ 4 := hpow 4
  have h64 : (2 : ℚ) ^ 64 ≤ M := by
    rw [← zpow_natCast, ← hM]
    exact zpow_le_zpow_right₀ one_le_two (by norm_num)
  have hpos : 0 < M := hM ▸ two_zpow_pos 1019
  obtain ⟨hwidth, hwidthSize⟩ := h.abs_width_le (by norm_num) (by norm_num) hlow hhigh
  have hproductSize := h.value_step_mul_le hwidth
  rw [hM] at hlow
  rw [h1020] at hwidthSize
  obtain ⟨hproduct, hle⟩ := (mul_isRounded (h.step_isFinite hwidth).1
    (h.isFinite_ofNat (Nat.sub_le n 1))).abs_value_le (k := 1022) (by norm_num) (by norm_num) (by
      rw [h1022]
      linarith only [hproductSize, hwidthSize, h64, hpos, le_abs_self (value (high - low))])
  rw [h1022] at hle
  exact ((add_isRounded h.isFinite_low hproduct).abs_value_le (k := 1023) (by norm_num) (by norm_num)
    ((abs_add_le _ _).trans (by rw [h1023]; linarith only [hlow, hle, hpos]))).1

/-- **Shares** between ends that leave room for the number of places. -/
theorem isFinite_share_of_small {m : ℕ} (hm : m ≤ 64) (hcount : n ≤ 2 ^ m)
    (hlow : |value low| ≤ 2 ^ (1021 - m : ℤ)) (hhigh : |value high| ≤ 2 ^ (1021 - m : ℤ)) :
    (low + shareDistance low high n (n - 1)).isFinite := by
  have hone := h.one_le_count
  obtain ⟨hfinite, hcount⟩ := abs_value_ofNat_le (n := n - 1) (k := m) (by omega)
    ((Nat.sub_le n 1).trans hcount)
  obtain ⟨hwidth, hwidthSize⟩ := h.abs_width_le (by omega) (by omega) hlow hhigh
  have hproductSize : |value (high - low) * value (Float.ofNat (n - 1))| ≤ 2 ^ (1022 : ℤ) := by
    have hsplit : (2 : ℚ) ^ (1022 : ℤ) = 2 ^ (1021 - m + 1 : ℤ) * 2 ^ m := by
      rw [← zpow_natCast, ← zpow_add₀ two_ne_zero]
      exact congrArg _ (by ring)
    rw [abs_mul, hsplit]
    exact mul_le_mul hwidthSize hcount (abs_nonneg _) (two_zpow_pos _).le
  obtain ⟨hproduct, hproductSize⟩ :=
    (mul_isRounded hwidth hfinite).abs_value_le (by norm_num) (by norm_num) hproductSize
  obtain ⟨hshare, hshareSize⟩ :=
    (div_isRounded hproduct hfinite (one_pos.trans_le hone).ne').abs_value_le (k := 1022)
      (by norm_num) (by norm_num) (by
        rw [abs_div, abs_of_pos (one_pos.trans_le hone)]
        exact (div_le_self (abs_nonneg _) hone).trans hproductSize)
  refine ((add_isRounded h.isFinite_low hshare).abs_value_le (k := 1023) (by norm_num) (by norm_num)
    ((abs_add_le _ _).trans ?_)).1
  have hlow : |value low| ≤ 2 ^ (1022 : ℤ) :=
    hlow.trans (zpow_le_zpow_right₀ one_le_two (by omega))
  have hdouble : (2 : ℚ) ^ (1023 : ℤ) = 2 ^ (1022 : ℤ) * 2 := zpow_add_one₀ two_ne_zero 1022
  rw [hdouble]
  linarith only [hlow, hshareSize]

end GridRange

end CurveFit

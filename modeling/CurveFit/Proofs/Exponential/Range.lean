import CurveFit.Exponential.Fast
import CurveFit.Proofs.Binary64.Words
import Mathlib

/-!
# The words of the table steps

A count of table steps is a signed word; its low bits choose a place of the table and the bits above
them, with the bias, the exponent of the result.  For every argument in the range of the table and
every count near it the exponent is that of a normal number, and the word put together from exponent
and fraction stands for the power of two times the significand (`placed_of_stepCount`).  Seven steps
are left at the top of the range: the last places of the table never meet the largest exponent.
-/

namespace CurveFit.Exponential

open CurveFit.Binary64

/-! ## Table steps of the real numbers -/

/-- An argument between the ends of the range of the table. -/
def InRange (x : ℝ) : Prop := value minArgument ≤ x ∧ x ≤ value maxArgument

/-- A whole number of table steps nearest to an argument, or further away by the slack. -/
def StepCount (slack x : ℝ) (k : ℤ) : Prop := |k - x * 2048 / Real.log 2| ≤ 1 / 2 + slack

/-- The true power of two for a biased exponent and a place of the table. -/
noncomputable def truePower (e : UInt64) (j : ℕ) : ℝ := 2 ^ (e.toNat - 1023 : ℤ) * 2 ^ (j / 2048 : ℝ)

/-- The fraction of a power of two, rounded to 52 places. -/
noncomputable def nearestFraction (q : ℝ) : ℕ := ⌊((2 : ℝ) ^ q - 1) * 2 ^ 52 + 1 / 2⌋₊

theorem value_minArgument : value minArgument = -6231064336001925 / 8796093022208 := by decide +kernel

theorem value_maxArgument : value maxArgument = 3121645452651397 / 4398046511104 := by decide +kernel

section Counts

variable {slack x : ℝ} {k : ℤ}

/-- The arguments that belong to a count. -/
theorem stepCount_iff : StepCount slack x k ↔
    (k - 1 / 2 - slack) * Real.log 2 ≤ x * 2048 ∧ x * 2048 ≤ (k + 1 / 2 + slack) * Real.log 2 := by
  have hlog : 0 < Real.log 2 := Real.log_pos one_lt_two
  unfold StepCount
  rw [abs_le, ← le_div_iff₀ hlog, ← div_le_iff₀ hlog]
  constructor <;> rintro ⟨hlower, hupper⟩ <;> constructor <;> linarith

/-- The count stays clear of both ends, also with a slack. -/
theorem StepCount.range (hx : InRange x) (h : StepCount (2 ^ (-20 : ℤ)) x k) :
    2048 - 1023 * 2048 ≤ k ∧ k ≤ 1023 * 2048 + 2040 := by
  obtain ⟨hmin, hmax⟩ := hx
  rw [value_minArgument] at hmin
  rw [value_maxArgument] at hmax
  obtain ⟨hlower, hupper⟩ := stepCount_iff.mp h
  have hlog := Real.log_two_gt_d9
  push_cast at hmin hmax
  constructor
  · by_contra hlt
    have hk : (k : ℝ) ≤ 2047 - 1023 * 2048 := by exact_mod_cast (by omega : k ≤ 2047 - 1023 * 2048)
    have hneg : (k + 1 / 2 + 2 ^ (-20 : ℤ)) * Real.log 2 ≤
        (k + 1 / 2 + 2 ^ (-20 : ℤ)) * 0.6931471803 :=
      mul_le_mul_of_nonpos_left hlog.le (by norm_num; linarith)
    norm_num at hneg hupper
    linarith
  · by_contra hgt
    have hk : 1023 * 2048 + 2041 ≤ (k : ℝ) := by exact_mod_cast (by omega : 1023 * 2048 + 2041 ≤ k)
    have hpos : (k - 1 / 2 - 2 ^ (-20 : ℤ)) * 0.6931471803 ≤
        (k - 1 / 2 - 2 ^ (-20 : ℤ)) * Real.log 2 :=
      mul_le_mul_of_nonneg_left hlog.le (by norm_num; linarith)
    norm_num at hpos hlower
    linarith

end Counts

/-! ## Signed words -/

theorem toInt_shiftRight (n : Int64) : (n >>> 11).toInt = n.toInt / 2048 := by
  have hshift : (11 : Int64).toBitVec.smod 64 = 11#64 := by decide
  rw [← Int64.toInt_toBitVec, Int64.toBitVec_shiftRight, hshift]
  exact BitVec.toInt_sshiftRight.trans (Int.shiftRight_eq_div_pow _ _)

theorem toNat_toUInt64 {n : Int64} (h : 0 ≤ n.toInt) : (n.toUInt64.toNat : ℤ) = n.toInt := by
  have hcases := BitVec.toInt_eq_toNat_cond n.toBitVec
  have hword := n.toBitVec.isLt
  have hpos : 0 ≤ n.toBitVec.toInt := h
  show (n.toBitVec.toNat : ℤ) = n.toBitVec.toInt
  split_ifs at hcases <;> omega

/-- The exponent of a count, by a division that rounds down. -/
theorem toNat_biasedExponent {k : ℤ} (hlower : -(1023 * 2048) ≤ k) (hupper : k < 2 ^ 62) :
    ((biasedExponent (Int64.ofInt k)).toNat : ℤ) = (k + 1023 * 2048) / 2048 := by
  have hbiased : Int64.ofInt k + scaledBias.toInt64 = Int64.ofInt (k + 1023 * 2048) := by
    rw [Int64.ofInt_add]
    rfl
  have hsum : (Int64.ofInt (k + 1023 * 2048)).toInt = k + 1023 * 2048 :=
    Int64.toInt_ofInt_of_le (by omega) (by omega)
  have hshifted : (Int64.ofInt (k + 1023 * 2048) >>> 11).toInt = (k + 1023 * 2048) / 2048 := by
    rw [toInt_shiftRight, hsum]
  unfold biasedExponent
  rw [hbiased, toNat_toUInt64 (by omega), hshifted]

theorem toNat_toUInt64_ofInt (k : ℤ) : ((Int64.ofInt k).toUInt64.toNat : ℤ) = k % 2 ^ 64 := by
  show ((BitVec.ofInt 64 k).toNat : ℤ) = k % 2 ^ 64
  rw [BitVec.toNat_ofInt]
  omega

/-- The index bits of a count are its remainder, also when it is negative. -/
theorem toNat_tableIndex (k : ℤ) : (tableIndex (Int64.ofInt k).toUInt64 : ℤ) = k % 2048 := by
  have hword := toNat_toUInt64_ofInt k
  have hmask : (Int64.ofInt k).toUInt64.toNat &&& (2047 : UInt64).toNat =
      (Int64.ofInt k).toUInt64.toNat % 2 ^ 11 := Nat.and_two_pow_sub_one_eq_mod _ 11
  unfold tableIndex indexMask
  rw [UInt64.toNat_and, hmask]
  omega

/-- Every word chooses a place of the table. -/
theorem tableIndex_lt (k : UInt64) : tableIndex k < tableSize := by
  have hmask : (k &&& indexMask).toNat ≤ 2047 := by
    unfold indexMask
    rw [UInt64.toNat_and]
    exact Nat.and_le_right
  exact Nat.lt_succ_of_le hmask

/-! ## Numbers put together -/

section Assemble

variable {e f : UInt64}

/-- Exponent and fraction have no bits in common. -/
theorem exponent_and_fraction (hf : f.toNat < 2 ^ 52) : (e <<< 52) &&& f = 0 := by
  apply UInt64.toNat_inj.mp
  rw [UInt64.toNat_and, UInt64.toNat_shiftLeft]
  apply Nat.eq_of_testBit_eq
  intro i
  show ((e.toNat <<< 52 % 2 ^ 64) &&& f.toNat).testBit i = Nat.testBit 0 i
  rw [Nat.testBit_and, Nat.zero_testBit, Nat.testBit_mod_two_pow, Nat.testBit_shiftLeft]
  rcases lt_or_ge i 52 with hlow | hhigh
  · simp [hlow]
  · simp [Nat.testBit_lt_two_pow (hf.trans_le (Nat.pow_le_pow_right two_pos hhigh))]

theorem toNat_exponent_or_fraction (he : e.toNat < 2047) (hf : f.toNat < 2 ^ 52) :
    ((e <<< 52) ||| f).toNat = e.toNat * 2 ^ 52 + f.toNat := by
  have hshift : e.toNat <<< 52 = e.toNat * 2 ^ 52 := Nat.shiftLeft_eq ..
  rw [UInt64.toNat_or, UInt64.toNat_shiftLeft]
  show (e.toNat <<< 52 % 2 ^ 64) ||| f.toNat = _
  rw [Nat.mod_eq_of_lt (by omega), ← Nat.shiftLeft_add_eq_or_of_lt hf, hshift]

/-- The number with the exponent of a normal number. -/
theorem value_assemble (he : 1 ≤ e.toNat) (he' : e.toNat < 2047) (hf : f.toNat < 2 ^ 52) :
    (assemble e f).isFinite ∧
      value (assemble e f) = 2 ^ (e.toNat - 1023 : ℤ) * (1 + f.toNat / 2 ^ 52) :=
  value_ofBits (toNat_exponent_or_fraction he' hf) he he' hf

end Assemble

/-! ## The table -/

section Table

variable (exp2 : Float → Float)

theorem getD_tableOf {j : ℕ} (hj : j < tableSize) : (tableOf exp2).getD j 0 = tableEntry exp2 j := by
  have hsize : j < (tableOf exp2).size := by rwa [size_tableOf]
  rw [Array.getD_eq_getD_getElem?, Array.getElem?_eq_getElem hsize, Option.getD_some]
  exact Array.getElem_ofFn _

theorem toNat_tableEntry (j : ℕ) :
    (tableEntry exp2 j).toNat = (exp2 (Float.ofNat j / 2048.0)).toBits.toNat % 2 ^ 52 := by
  unfold tableEntry
  rw [UInt64.toNat_and]
  exact Nat.and_two_pow_sub_one_eq_mod _ 52

theorem toNat_tableEntry_lt (j : ℕ) : (tableEntry exp2 j).toNat < 2 ^ 52 := by
  rw [toNat_tableEntry]
  exact Nat.mod_lt _ (by positivity)

/-- A stored fraction has no bits of an exponent. -/
theorem toNat_fractionAt_lt (k : UInt64) : (fractionAt (tableOf exp2) k).toNat < 2 ^ 52 := by
  unfold fractionAt
  rw [getD_tableOf exp2 (tableIndex_lt k)]
  exact toNat_tableEntry_lt exp2 _

end Table

/-- What the word of a count of table steps holds: with the bias it is the exponent of a normal number
and a place of the table, and its exponent and its fraction make up a number without touching. -/
structure Placed (stored : Array UInt64) (k : ℤ) : Prop where
  toInt : (Int64.ofInt k).toInt = k
  lower : 2048 ≤ k + scaledBias.toNat
  upper : k + scaledBias.toNat ≤ 2047 * 2048 - 1
  one_le : 1 ≤ (biasedExponent (Int64.ofInt k)).toNat
  le_max : (biasedExponent (Int64.ofInt k)).toNat ≤ 2046
  parts : k = 2048 * ((biasedExponent (Int64.ofInt k)).toNat - 1023) +
    tableIndex (Int64.ofInt k).toUInt64
  index_lt : tableIndex (Int64.ofInt k).toUInt64 < stored.size
  disjoint : (biasedExponent (Int64.ofInt k) <<< 52) &&&
    fractionAt stored (Int64.ofInt k).toUInt64 = 0
  isFinite : (assemble (biasedExponent (Int64.ofInt k))
    (fractionAt stored (Int64.ofInt k).toUInt64)).isFinite
  value_eq : value (assemble (biasedExponent (Int64.ofInt k))
      (fractionAt stored (Int64.ofInt k).toUInt64)) =
    2 ^ ((biasedExponent (Int64.ofInt k)).toNat - 1023 : ℤ) *
      (1 + (fractionAt stored (Int64.ofInt k).toUInt64).toNat / 2 ^ 52)

/-- **The counts** of the arguments in range have their place among the normal numbers. -/
theorem placed_of_stepCount (exp2 : Float → Float) {x : ℝ} {k : ℤ} (hx : InRange x)
    (h : StepCount (2 ^ (-20 : ℤ)) x k) : Placed (tableOf exp2) k := by
  obtain ⟨hlower, hupper⟩ := h.range hx
  have hbias : scaledBias.toNat = 1023 * 2048 := rfl
  have hexponent := toNat_biasedExponent (k := k) (by omega) (by omega)
  have hindex := toNat_tableIndex k
  have hfraction := toNat_fractionAt_lt exp2 (Int64.ofInt k).toUInt64
  exact {
    toInt := Int64.toInt_ofInt_of_le (by omega) (by omega)
    lower := by omega
    upper := by omega
    one_le := by omega
    le_max := by omega
    parts := by omega
    index_lt := (tableIndex_lt _).trans_eq (size_tableOf exp2).symm
    disjoint := exponent_and_fraction hfraction
    isFinite := (value_assemble (by omega) (by omega) hfraction).1
    value_eq := (value_assemble (by omega) (by omega) hfraction).2 }

end CurveFit.Exponential

import CurveFit.Json.Writer
import CurveFit.Proofs.Json.Numerals

/-!
# Numbers as JSON text

The texts of counts and of decimals are numerals, and `Decimal.shown` says which significand and
power of ten the text of a decimal shows: its own, except that a whole number written out shows its
trailing zeros and a digit behind the point.
-/

namespace CurveFit

open Text

namespace Json

/-! ## Counts -/

/-- A count as a numeral. -/
def countNumeral (n : ℕ) : Numeral := ⟨false, Nat.toDigits 10 n, none, none⟩

theorem countNumeral_text (n : ℕ) : (toString n).toList = (countNumeral n).text := by
  show _ = [] ++ (Nat.toDigits 10 n ++ ([] ++ []))
  rw [Nat.toString_eq_repr, Nat.toList_repr, List.nil_append, List.append_nil, List.append_nil]

theorem digitRun_toDigits (n : ℕ) : DigitRun (Nat.toDigits 10 n) :=
  ⟨Nat.toDigits_ne_nil, isDigit_toDigits n⟩

theorem countNumeral_proper (n : ℕ) : (countNumeral n).Proper where
  whole := digitRun_toDigits n
  leading := by
    rcases Nat.eq_zero_or_pos n with rfl | hn
    · exact .inl rfl
    · exact .inr (head?_toDigits hn)
  fraction := nofun
  exponent := nofun

theorem toCount?_countNumeral (n : ℕ) :
    (countNumeral n).toCount? = if n ≤ maxCount then some n else none := by
  show (if digitsValue (Nat.toDigits 10 n) ≤ maxCount then some (digitsValue (Nat.toDigits 10 n))
    else none) = _
  rw [digitsValue_toDigits]

/-! ## Digits with a point -/

section Digits

variable (negative : Bool) {ds : List Char} (place : ℤ)

/-- Digits with the point after `place` of them. -/
def positionalNumeral (ds : List Char) : Numeral :=
  if place ≤ 0 then ⟨negative, ['0'], some (List.replicate (-place).toNat '0' ++ ds), none⟩
  else if ds.length ≤ place then
    ⟨negative, ds ++ List.replicate (place.toNat - ds.length) '0', some ['0'], none⟩
  else ⟨negative, ds.take place.toNat, some (ds.drop place.toNat), none⟩

/-- Digits with the point after the first one, and an exponent. -/
def exponentNumeral (ds : List Char) : Numeral :=
  ⟨negative, ds.take 1, if ds.length = 1 then none else some (ds.drop 1),
    some (decide (place - 1 < 0), Nat.toDigits 10 (place - 1).natAbs)⟩

theorem positionalNumeral_text (ds : List Char) :
    signChars negative ++ (positional (String.ofList ds) place ".0").toList =
      (positionalNumeral negative place ds).text := by
  unfold positional positionalNumeral
  rw [String.length_ofList]
  dsimp only
  split_ifs with hsmall hwhole
  all_goals
    simp only [Numeral.text, fractionChars, exponentChars, String.toList_append, copies,
      String.toList_ofList, List.append_assoc, List.append_nil]
    rfl

theorem positionalNumeral_proper (hds : DigitRun ds) (hleading : ds.head? ≠ some '0') :
    (positionalNumeral negative place ds).Proper := by
  obtain ⟨hne, hdigits⟩ := hds
  have hzero : DigitRun ['0'] := digitRun_toDigits 0
  unfold positionalNumeral
  split_ifs with hsmall hwhole
  · exact
      { whole := hzero
        leading := .inl rfl
        fraction := by
          rintro _ ⟨⟩
          exact ⟨List.append_ne_nil_of_right_ne_nil _ hne,
            List.forall_mem_append.mpr ⟨isDigit_zeros _, hdigits⟩⟩
        exponent := nofun }
  · exact
      { whole := ⟨List.append_ne_nil_of_left_ne_nil hne _,
          List.forall_mem_append.mpr ⟨hdigits, isDigit_zeros _⟩⟩
        leading := .inr (by rwa [List.head?_append_of_ne_nil _ hne])
        fraction := by
          rintro _ ⟨⟩
          exact hzero
        exponent := nofun }
  · have hpos : 0 < place.toNat := by omega
    have htake : ds.take place.toNat ≠ [] := by
      rw [Ne, List.take_eq_nil_iff]
      exact not_or.mpr ⟨hpos.ne', hne⟩
    have hdrop : ds.drop place.toNat ≠ [] := by
      have hlt : place.toNat < ds.length := by omega
      rw [Ne, List.drop_eq_nil_iff]
      exact hlt.not_ge
    exact
      { whole := ⟨htake, fun c hc => hdigits c (List.mem_of_mem_take hc)⟩
        leading := .inr (by rwa [List.head?_take, if_neg hpos.ne'])
        fraction := by
          rintro _ ⟨⟩
          exact ⟨hdrop, fun c hc => hdigits c (List.mem_of_mem_drop hc)⟩
        exponent := nofun }

/-- A whole number shows its trailing zeros and one more behind the point. -/
theorem positionalNumeral_shows_whole (hne : ds ≠ []) (hwhole : ds.length ≤ place) :
    (positionalNumeral negative place ds).Shows
      (digitsValue ds * 10 ^ (place - ds.length + 1).toNat) (-1) := by
  have hpos := List.length_pos_of_ne_nil hne
  unfold positionalNumeral
  rw [if_neg (by omega), if_pos hwhole]
  constructor
  · show digitsValue ((ds ++ _) ++ ['0']) = _
    rw [List.append_assoc, digitsValue_append, digitsValue_append, digitsValue_zeros]
    have hlen : (List.replicate (place.toNat - ds.length) '0' ++ ['0']).length =
        (place - ds.length + 1).toNat := by
      rw [List.length_append, List.length_replicate, List.length_singleton]
      omega
    rw [hlen]
    simp [digitsValue]
  · rfl

/-- Any other number shows its own digits. -/
theorem positionalNumeral_shows (hwhole : place < ds.length) :
    (positionalNumeral negative place ds).Shows (digitsValue ds) (place - ds.length) := by
  unfold positionalNumeral
  split_ifs with hsmall hwhole'
  · constructor
    · show digitsValue (['0'] ++ (List.replicate _ '0' ++ ds)) = _
      rw [digitsValue_append, digitsValue_append, digitsValue_zeros]
      simp [digitsValue]
    · show (0 : ℤ) - (List.replicate _ '0' ++ ds).length = _
      rw [List.length_append, List.length_replicate]
      omega
  · omega
  · constructor
    · show digitsValue (ds.take _ ++ ds.drop _) = _
      rw [List.take_append_drop]
    · show (0 : ℤ) - (ds.drop _).length = _
      rw [List.length_drop]
      omega

theorem exponentNumeral_text (ds : List Char) (hne : ds ≠ []) :
    signChars negative ++
        (mantissa (String.ofList ds) ++ "e" ++ exponentText (place - 1) true).toList =
      (exponentNumeral negative place ds).text := by
  have hmantissa : (mantissa (String.ofList ds)).toList = ds.take 1 ++
      fractionChars (if ds.length = 1 then none else some (ds.drop 1)) := by
    unfold mantissa
    rw [String.toList_ofList]
    match ds, hne with
    | [d], _ => exact String.toList_ofList
    | d :: c :: rest, _ => exact String.toList_ofList
  have hexponent : (exponentText (place - 1) true).toList =
      (if decide (place - 1 < 0) then '-' else '+') :: Nat.toDigits 10 (place - 1).natAbs := by
    unfold exponentText
    by_cases hneg : place - 1 < 0
    · rw [if_pos hneg, String.toList_append, Nat.toString_eq_repr, Nat.toList_repr,
        if_pos (decide_eq_true hneg)]
      rfl
    · rw [if_neg hneg, if_pos rfl, String.toList_append, Nat.toString_eq_repr, Nat.toList_repr,
        if_neg (mt of_decide_eq_true hneg)]
      rfl
  unfold exponentNumeral Numeral.text
  rw [String.toList_append, String.toList_append, hmantissa, hexponent, List.append_assoc,
    List.append_assoc]
  rfl

theorem exponentNumeral_proper (hds : DigitRun ds) : (exponentNumeral negative place ds).Proper := by
  obtain ⟨hne, hdigits⟩ := hds
  have hpos := List.length_pos_of_ne_nil hne
  exact
    { whole := by
        refine ⟨?_, fun c hc => hdigits c (List.mem_of_mem_take hc)⟩
        show ds.take 1 ≠ []
        rw [Ne, List.take_eq_nil_iff]
        exact not_or.mpr ⟨one_ne_zero, hne⟩
      leading := .inl (by
        show (ds.take 1).length = 1
        rw [List.length_take]
        omega)
      fraction := by
        intro rest hrest
        have hrest : rest ∈ if ds.length = 1 then none else some (ds.drop 1) := hrest
        split_ifs at hrest with hone
        · cases hrest
        · cases hrest
          refine ⟨?_, fun c hc => hdigits c (List.mem_of_mem_drop hc)⟩
          rw [Ne, List.drop_eq_nil_iff]
          omega
      exponent := by
        rintro _ ⟨⟩
        exact digitRun_toDigits _ }

theorem exponentNumeral_shows (hne : ds ≠ []) :
    (exponentNumeral negative place ds).Shows (digitsValue ds) (place - ds.length) := by
  have hpos := List.length_pos_of_ne_nil hne
  have hrest : (if ds.length = 1 then none else some (ds.drop 1)).getD [] = ds.drop 1 := by
    split_ifs with hone
    · exact (List.drop_eq_nil_of_le hone.le).symm
    · rfl
  constructor
  · show digitsValue (ds.take 1 ++ (if ds.length = 1 then none else some (ds.drop 1)).getD []) = _
    rw [hrest, List.take_append_drop]
  · show (if decide (place - 1 < 0) then -(digitsValue (Nat.toDigits 10 (place - 1).natAbs) : ℤ)
      else digitsValue (Nat.toDigits 10 (place - 1).natAbs)) -
        ((if ds.length = 1 then none else some (ds.drop 1)).getD []).length = _
    rw [hrest, digitsValue_toDigits, List.length_drop]
    by_cases hneg : place - 1 < 0
    · rw [if_pos (decide_eq_true hneg)]
      omega
    · rw [if_neg (mt of_decide_eq_true hneg)]
      omega

end Digits

/-! ## Decimals -/

/-- How many digits of a decimal stand before the point. -/
def place (d : Decimal) : ℤ := (Nat.toDigits 10 d.digits).length + d.exponent

/-- A decimal as a numeral. -/
def decimalNumeral (negative : Bool) (d : Decimal) : Numeral :=
  if NumberStyle.json.isPositional (place d - 1) then
    positionalNumeral negative (place d) (Nat.toDigits 10 d.digits)
  else exponentNumeral negative (place d) (Nat.toDigits 10 d.digits)

/-- The significand and the power of ten that the text of a decimal shows. -/
def shown (d : Decimal) : ℕ × ℤ :=
  if 0 ≤ d.exponent ∧ NumberStyle.json.isPositional (place d - 1) then
    (d.digits * 10 ^ (d.exponent + 1).toNat, -1)
  else (d.digits, d.exponent)

theorem decimalNumeral_text (negative : Bool) (d : Decimal) :
    signChars negative ++ (NumberStyle.json.renderDecimal d).toList =
      (decimalNumeral negative d).text := by
  unfold NumberStyle.renderDecimal decimalNumeral
  rw [Nat.toString_eq_ofList_toDigits]
  dsimp only
  rw [String.length_ofList]
  show signChars negative ++ (if NumberStyle.json.isPositional (place d - 1) then
    positional _ (place d) ".0" else _ ++ "e" ++ exponentText (place d - 1) true).toList = _
  split_ifs
  · exact positionalNumeral_text ..
  · exact exponentNumeral_text _ _ _ Nat.toDigits_ne_nil

theorem decimalNumeral_proper (negative : Bool) {d : Decimal} (hd : 0 < d.digits) :
    (decimalNumeral negative d).Proper := by
  unfold decimalNumeral
  split_ifs
  · exact positionalNumeral_proper _ _ (digitRun_toDigits _) (head?_toDigits hd)
  · exact exponentNumeral_proper _ _ (digitRun_toDigits _)

theorem decimalNumeral_shows (negative : Bool) (d : Decimal) :
    (decimalNumeral negative d).Shows (shown d).1 (shown d).2 := by
  have hne : Nat.toDigits 10 d.digits ≠ [] := Nat.toDigits_ne_nil
  have hexponent : d.exponent = place d - (Nat.toDigits 10 d.digits).length :=
    (add_sub_cancel_left _ _).symm
  unfold decimalNumeral shown
  by_cases hpositional : NumberStyle.json.isPositional (place d - 1) = true
  · rw [if_pos hpositional]
    by_cases hwhole : 0 ≤ d.exponent
    · have hshows := positionalNumeral_shows_whole negative (place d) hne (by omega)
      rw [digitsValue_toDigits, ← hexponent] at hshows
      rwa [if_pos ⟨hwhole, hpositional⟩]
    · have hshows := positionalNumeral_shows negative (place d)
        (show place d < (Nat.toDigits 10 d.digits).length by omega)
      rw [digitsValue_toDigits, ← hexponent] at hshows
      rwa [if_neg fun h => hwhole h.1]
  · have hshows := exponentNumeral_shows negative (place d) hne
    rw [digitsValue_toDigits, ← hexponent] at hshows
    rwa [if_neg hpositional, if_neg fun h => hpositional h.2]

end Json

end CurveFit

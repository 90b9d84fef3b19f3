import CurveFit.Json.Decode
import CurveFit.Json.Reader
import Mathlib.Data.List.Basic
import Mathlib.Tactic.Ring

/-!
# Numerals in JSON

A numeral as it is written, `Numeral.text`, is read back as it stands by `readNumeral`, as long as
what follows does not go on with it.  Its digits are taken without loss while they stay below
`2 ^ 64` (`takeDigits_eq`), so that a numeral that `Shows` a significand and a power of ten is what
`scale?` makes of the two.
-/

namespace CurveFit

/-! ## Digits -/

namespace Text

theorem digitsValue_append (ds ds' : List Char) :
    digitsValue (ds ++ ds') = digitsValue ds * 10 ^ ds'.length + digitsValue ds' := by
  show Nat.ofDigitChars 10 (ds ++ ds') 0 = Nat.ofDigitChars 10 ds 0 * _ + Nat.ofDigitChars 10 ds' 0
  rw [Nat.ofDigitChars_append, Nat.ofDigitChars_eq_ofDigitChars_zero, Nat.mul_comm]

theorem digitsValue_zeros (n : ℕ) : digitsValue (List.replicate n '0') = 0 :=
  Nat.ofDigitChars_replicate_zero.trans (Nat.mul_zero _)

theorem digitsValue_toDigits (n : ℕ) : digitsValue (Nat.toDigits 10 n) = n :=
  Nat.ofDigitChars_ten_toDigits

theorem isDigit_toDigits (n : ℕ) : ∀ c ∈ Nat.toDigits 10 n, c.isDigit := fun _ hc =>
  Nat.isDigit_of_mem_toDigits (by decide) le_rfl hc

theorem isDigit_zeros (n : ℕ) : ∀ c ∈ List.replicate n '0', c.isDigit := by
  intro c hc
  rw [List.eq_of_mem_replicate hc]
  rfl

/-- A positive number starts with a digit other than zero. -/
theorem head?_toDigits {n : ℕ} (hn : 0 < n) : (Nat.toDigits 10 n).head? ≠ some '0' := by
  induction n using Nat.strong_induction_on with
  | h n ih =>
    rcases lt_or_ge n 10 with hlt | hge
    · rw [Nat.toDigits_of_lt_base hlt, List.head?_cons]
      have hsmall : ∀ k < 10, 0 < k → some k.digitChar ≠ some '0' := by decide
      exact hsmall n hlt hn
    · have hrest : 0 < n / 10 := Nat.div_pos hge (by omega)
      rw [Nat.toDigits_of_base_le (by decide) hge, List.head?_append_of_ne_nil _ Nat.toDigits_ne_nil]
      exact ih _ (Nat.div_lt_self hn (by omega)) hrest

end Text

namespace Json

open Text

/-- Digits are all taken as long as the significand has room for them. -/
theorem takeDigits_eq {significand : ℕ} {ds : List Char}
    (h : significand * 10 ^ ds.length + digitsValue ds ≤ maxSignificand) (used : ℕ) :
    takeDigits significand used ds =
      (significand * 10 ^ ds.length + digitsValue ds, used + ds.length) := by
  induction ds generalizing significand used with
  | nil => simp [takeDigits, digitsValue]
  | cons c ds ih =>
    have hvalue : digitsValue (c :: ds) = (c.toNat - 48) * 10 ^ ds.length + digitsValue ds := by
      have happend := digitsValue_append [c] ds
      simpa [digitsValue] using happend
    have hsum : significand * 10 ^ (c :: ds).length + digitsValue (c :: ds) =
        (10 * significand + (c.toNat - 48)) * 10 ^ ds.length + digitsValue ds := by
      rw [hvalue, List.length_cons]
      ring
    have hroom : ¬ maxSignificand < 10 * significand + (c.toNat - 48) := by
      have hpos : 0 < 10 ^ ds.length := Nat.pow_pos (by omega)
      have hle := Nat.le_mul_of_pos_right (10 * significand + (c.toNat - 48)) hpos
      omega
    rw [hsum] at h ⊢
    unfold takeDigits
    rw [if_neg hroom, ih h, List.length_cons, Nat.add_right_comm, Nat.add_assoc]

/-! ## Reading a numeral -/

/-- A sign where there is one to be written. -/
def signChars (negative : Bool) : List Char := if negative then ['-'] else []

/-- The digits behind a point. -/
def fractionChars : Option (List Char) → List Char
  | none => []
  | some ds => '.' :: ds

/-- An exponent, its sign always written. -/
def exponentChars : Option (Bool × List Char) → List Char
  | none => []
  | some (minus, ds) => 'e' :: (if minus then '-' else '+') :: ds

/-- The numeral as it is written. -/
def Numeral.text (n : Numeral) : List Char :=
  signChars n.negative ++ (n.whole ++ (fractionChars n.fraction ++ exponentChars n.exponent))

/-- A run of digits that is not empty. -/
def DigitRun (ds : List Char) : Prop := ds ≠ [] ∧ ∀ c ∈ ds, c.isDigit

/-- Digits where the grammar asks for them, and no superfluous zero in front. -/
structure Numeral.Proper (n : Numeral) : Prop where
  whole : DigitRun n.whole
  leading : n.whole.length = 1 ∨ n.whole.head? ≠ some '0'
  fraction : ∀ ds ∈ n.fraction, DigitRun ds
  exponent : ∀ e ∈ n.exponent, DigitRun e.2

/-- What follows does not start with one of the characters that a numeral goes on with. -/
def EndsNumeral (rest : List Char) : Prop :=
  ∀ c ∈ rest.head?, c.isDigit = false ∧ c ≠ '.' ∧ c ≠ 'e' ∧ c ≠ 'E'

theorem readDigits_append {ds rest : List Char} (hds : ∀ c ∈ ds, c.isDigit)
    (hrest : ∀ c ∈ rest.head?, c.isDigit = false) : readDigits (ds ++ rest) = (ds, rest) := by
  have hstop : rest.takeWhile Char.isDigit = [] ∧ rest.dropWhile Char.isDigit = rest := by
    cases rest with
    | nil => exact ⟨rfl, rfl⟩
    | cons c rest =>
      have hc := hrest c rfl
      exact ⟨List.takeWhile_cons_of_neg (by rw [hc]; decide),
        List.dropWhile_cons_of_neg (by rw [hc]; decide)⟩
  unfold readDigits
  rw [List.takeWhile_append_of_pos hds, List.dropWhile_append_of_pos hds, hstop.1, hstop.2,
    List.append_nil]

theorem splitMinus_append (negative : Bool) {s : List Char} (hs : s.head? ≠ some '-') :
    splitMinus (signChars negative ++ s) = (negative, s) := by
  cases negative with
  | true => rfl
  | false =>
    show splitMinus s = (false, s)
    unfold splitMinus
    split
    · exact absurd rfl hs
    · rfl

theorem readFraction?_append {fraction : Option (List Char)} (h : ∀ ds ∈ fraction, DigitRun ds)
    {s : List Char} (hs : ∀ c ∈ s.head?, c.isDigit = false ∧ c ≠ '.') :
    readFraction? (fractionChars fraction ++ s) = some (fraction, s) := by
  cases fraction with
  | none =>
    show readFraction? s = some (none, s)
    unfold readFraction?
    split
    · exact absurd rfl (hs _ rfl).2
    · rfl
  | some ds =>
    obtain ⟨hne, hdigits⟩ := h ds rfl
    show readFraction? ('.' :: (ds ++ s)) = _
    simp only [readFraction?, readDigits_append hdigits fun c hc => (hs c hc).1]
    exact if_neg (mt List.isEmpty_iff.mp hne)

theorem splitSign_append (minus : Bool) (s : List Char) :
    splitSign ((if minus then '-' else '+') :: s) = (minus, s) := by
  cases minus <;> rfl

theorem readExponent?_append {exponent : Option (Bool × List Char)}
    (h : ∀ e ∈ exponent, DigitRun e.2) {s : List Char} (hs : EndsNumeral s) :
    readExponent? (exponentChars exponent ++ s) = some (exponent, s) := by
  cases exponent with
  | none =>
    show readExponent? s = some (none, s)
    unfold readExponent?
    split
    · exact absurd rfl (hs _ rfl).2.2.1
    · exact absurd rfl (hs _ rfl).2.2.2
    · rfl
  | some e =>
    obtain ⟨minus, ds⟩ := e
    obtain ⟨hne, hdigits⟩ := h _ rfl
    show readExponent? ('e' :: (if minus then '-' else '+') :: (ds ++ s)) = _
    simp only [readExponent?, splitSign_append, readDigits_append hdigits fun c hc => (hs c hc).1]
    exact if_neg (mt List.isEmpty_iff.mp hne)

theorem Numeral.Proper.isWholePart {n : Numeral} (hn : n.Proper) : isWholePart n.whole := by
  have hne : n.whole.isEmpty = false := Bool.eq_false_iff.mpr (mt List.isEmpty_iff.mp hn.whole.1)
  unfold Json.isWholePart
  rw [hne, Bool.not_false, Bool.true_and, Bool.or_eq_true, beq_iff_eq, bne_iff_ne]
  exact hn.leading

/-- **A proper numeral** is read back as it stands. -/
theorem readNumeral_text {n : Numeral} (hn : n.Proper) {rest : List Char}
    (hrest : EndsNumeral rest) : readNumeral (n.text ++ rest) = some (n, rest) := by
  have hexponent : ∀ c ∈ (exponentChars n.exponent ++ rest).head?,
      c.isDigit = false ∧ c ≠ '.' := by
    intro c hc
    cases hpart : n.exponent with
    | none =>
      rw [hpart] at hc
      exact ⟨(hrest c hc).1, (hrest c hc).2.1⟩
    | some e =>
      rw [hpart] at hc
      cases hc
      exact ⟨by decide, by decide⟩
  have hfraction : ∀ c ∈ (fractionChars n.fraction ++ (exponentChars n.exponent ++ rest)).head?,
      c.isDigit = false := by
    intro c hc
    cases hpart : n.fraction with
    | none =>
      rw [hpart] at hc
      exact (hexponent c hc).1
    | some ds =>
      rw [hpart] at hc
      cases hc
      decide
  have hwhole : (n.whole ++ (fractionChars n.fraction ++ (exponentChars n.exponent ++ rest))).head? ≠
      some '-' := by
    rw [List.head?_append_of_ne_nil _ hn.whole.1]
    intro h
    exact absurd (hn.whole.2 _ (List.mem_of_head? h)) (by decide)
  have hguard : (guard (isWholePart n.whole) : Option Unit) = some () := if_pos hn.isWholePart
  unfold readNumeral Numeral.text
  rw [List.append_assoc, List.append_assoc, List.append_assoc, splitMinus_append _ hwhole]
  simp only [readDigits_append hn.whole.2 hfraction, hguard,
    readFraction?_append hn.fraction hexponent, Option.bind_eq_bind, Option.bind_some,
    readExponent?_append hn.exponent hrest]
  rfl

/-! ## What a numeral shows -/

/-- A numeral shows a significand, its sign apart, and a power of ten. -/
structure Numeral.Shows (n : Numeral) (significand : ℕ) (exponent : ℤ) : Prop where
  significand : digitsValue (n.whole ++ n.fraction.getD []) = significand
  exponent : n.writtenExponent - (n.fraction.getD []).length = exponent

/-- A numeral whose digits the significand has room for is read without loss. -/
theorem Numeral.Shows.toReal? {n : Numeral} {significand : ℕ} {exponent : ℤ}
    (h : n.Shows significand exponent) (hroom : significand ≤ maxSignificand) :
    n.toReal? = (scale? (Float.ofNat significand) exponent).map fun x =>
      if n.negative then -x else x := by
  have hsum : digitsValue n.whole * 10 ^ (n.fraction.getD []).length +
      digitsValue (n.fraction.getD []) = significand := by
    rw [← digitsValue_append, h.significand]
  have hwhole : 0 * 10 ^ n.whole.length + digitsValue n.whole ≤ maxSignificand := by
    have hpos : 0 < 10 ^ (n.fraction.getD []).length := Nat.pow_pos (by omega)
    have hle := Nat.le_mul_of_pos_right (digitsValue n.whole) hpos
    omega
  unfold Numeral.toReal?
  rw [takeDigits_eq hwhole, Nat.zero_mul, Nat.zero_add, Nat.zero_add]
  dsimp only
  rw [takeDigits_eq (hsum.trans_le hroom), hsum, Nat.zero_add, Nat.sub_self]
  dsimp only
  rw [Nat.cast_zero, ← h.exponent]
  congr 2
  ring

end Json

end CurveFit

import CurveFit.Proofs.Binary64.Special
import CurveFit.Proofs.Binary64.Whole

/-!
# Extremes of a list

`least` and `greatest` take one of two numbers and never a NaN if they can help it, so that a NaN in a
list leaves no trace in its extremes.  The fold over a list that starts from an infinity finds the
extreme of the numbers in it (`Picks.foldl`).  Hence both extremes are finite exactly when the list
has a finite number and no infinite one, whatever NaNs it holds: `extremes_isFinite_iff`.
-/

namespace CurveFit.Binary64

variable {R : Float → Float → Prop} {pick : Float → Float → Float} {a b r : Float} {l : List Float}

/-! ## Folds of a choice -/

/-- A choice between a number and what may be a NaN: a number that comes no later than either, in an
order. -/
structure Picks (R : Float → Float → Prop) (pick : Float → Float → Float) : Prop where
  refl : ∀ {a}, a.isNaN = false → R a a
  trans : ∀ {a b c}, R a b → R b c → R a c
  mem : ∀ {a b}, a.isNaN = false → pick a b = a ∨ pick a b = b ∧ b.isNaN = false
  left : ∀ {a b}, a.isNaN = false → R (pick a b) a
  right : ∀ {a b}, a.isNaN = false → b.isNaN = false → R (pick a b) b

/-- A number is the first, in an order, of a number and the numbers in a list. -/
structure Extreme (R : Float → Float → Prop) (a : Float) (l : List Float) (r : Float) : Prop where
  isNaN : r.isNaN = false
  start : R r a
  bound : ∀ b ∈ l, b.isNaN = false → R r b
  mem : r = a ∨ r ∈ l

/-- **A fold** of a choice finds the extreme. -/
theorem Picks.foldl (h : Picks R pick) (ha : a.isNaN = false) (l : List Float) :
    Extreme R a l (l.foldl pick a) := by
  induction l generalizing a with
  | nil => exact ⟨ha, h.refl ha, nofun, .inl rfl⟩
  | cons b l ih =>
    have hpick : (pick a b).isNaN = false := by
      rcases h.mem ha (b := b) with heq | ⟨heq, hb⟩
      · rwa [heq]
      · rwa [heq]
    have hrest := ih hpick
    refine ⟨hrest.isNaN, h.trans hrest.start (h.left ha), ?_, ?_⟩
    · refine List.forall_mem_cons.mpr ⟨fun hb => ?_, hrest.bound⟩
      exact h.trans hrest.start (h.right ha hb)
    · rcases hrest.mem with hr | hr
      · rcases h.mem ha (b := b) with heq | ⟨heq, -⟩
        · exact .inl (hr.trans heq)
        · exact .inr (List.mem_cons.mpr (.inl (hr.trans heq)))
      · exact .inr (List.mem_cons_of_mem b hr)

/-- A comparison that decides an order among numbers makes a choice that gives way to numbers only. -/
theorem picks_of {S : Float → Float → Prop} [DecidableRel S]
    (hrefl : ∀ {a}, a.isNaN = false → R a a) (htrans : ∀ {a b c}, R a b → R b c → R a c)
    (hof : ∀ {a b}, S a b → R a b)
    (hnot : ∀ {a b}, a.isNaN = false → b.isNaN = false → ¬ S a b → R b a) :
    Picks R fun a b => if S a b then a else if b.isNaN then a else b where
  refl := hrefl
  trans := htrans
  mem {a b} ha := by
    by_cases hab : S a b
    · exact .inl (if_pos hab)
    · rw [if_neg hab]
      cases b.isNaN with
      | true => exact .inl rfl
      | false => exact .inr ⟨rfl, rfl⟩
  left {a b} ha := by
    by_cases hab : S a b
    · rw [if_pos hab]
      exact hrefl ha
    · rw [if_neg hab]
      cases hb : b.isNaN with
      | true => exact hrefl ha
      | false => exact hnot ha hb hab
  right {a b} ha hb := by
    by_cases hab : S a b
    · rw [if_pos hab]
      exact hof hab
    · rw [if_neg hab, hb]
      exact hrefl hb

theorem least_picks : Picks (· ≤ ·) least :=
  picks_of le_refl le_trans le_of_lt le_of_not_lt

theorem greatest_picks : Picks (· ≥ ·) greatest :=
  picks_of le_refl (fun hab hbc => le_trans hbc hab) le_of_lt fun ha hb => le_of_not_lt hb ha

/-! ## Both extremes of a list -/

theorem isInfinity_infinity : IsInfinity infinity := rfl

theorem value_infinity : value infinity = limit := isInfinity_infinity.value_eq

theorem not_infinity_le (ha : a.isFinite) : ¬ infinity ≤ a := by
  intro hle
  have hvalue := value_mono hle
  rw [value_infinity] at hvalue
  exact hvalue.not_gt (abs_lt.mp (isFinite_iff.mp ha).2).2

theorem not_le_neg_infinity (ha : a.isFinite) : ¬ a ≤ -infinity := by
  intro hle
  have hvalue := value_mono hle
  rw [value_neg, value_infinity] at hvalue
  exact hvalue.not_gt (abs_lt.mp (isFinite_iff.mp ha).2).1

/-- The least number of a list, if there is one. -/
theorem least_extreme (l : List Float) : Extreme (· ≤ ·) infinity l (l.foldl least infinity) :=
  least_picks.foldl (by decide +kernel) l

/-- The greatest number of a list, if there is one. -/
theorem greatest_extreme (l : List Float) :
    Extreme (· ≥ ·) (-infinity) l (l.foldl greatest (-infinity)) :=
  greatest_picks.foldl (by decide +kernel) l

/-- A finite extreme of what starts beyond all finite numbers is in the list. -/
theorem Extreme.mem_of_isFinite (h : Extreme R a l r) (ha : ¬ a.isFinite) (hr : r.isFinite) : r ∈ l :=
  h.mem.resolve_left fun heq => ha (heq ▸ hr)

/-- With a finite number in the list and no infinite one, the extreme is finite. -/
theorem Extreme.isFinite (h : Extreme R a l r) (hbeyond : ∀ {y : Float}, y.isFinite → ¬ R a y)
    (hsome : ∃ y ∈ l, y.isFinite) (hall : ∀ y ∈ l, y.isNaN ∨ y.isFinite) : r.isFinite := by
  obtain ⟨y, hy, hfinite⟩ := hsome
  rcases h.mem with rfl | hr
  · exact absurd (h.bound y hy (isNaN_of_isFinite hfinite)) (hbeyond hfinite)
  · exact (hall r hr).resolve_left (by rw [h.isNaN]; exact Bool.false_ne_true)

/-- What finite extremes say about their list. -/
structure Extremes (l : List Float) (low high : Float) : Prop where
  low_mem : low ∈ l
  high_mem : high ∈ l
  low_isFinite : low.isFinite
  high_isFinite : high.isFinite
  between : ∀ y ∈ l, y.isNaN ∨ y.isFinite ∧ low ≤ y ∧ y ≤ high

theorem extremes_of_isFinite (hlow : (l.foldl least infinity).isFinite)
    (hhigh : (l.foldl greatest (-infinity)).isFinite) :
    Extremes l (l.foldl least infinity) (l.foldl greatest (-infinity)) where
  low_mem := (least_extreme l).mem_of_isFinite (by decide +kernel) hlow
  high_mem := (greatest_extreme l).mem_of_isFinite (by decide +kernel) hhigh
  low_isFinite := hlow
  high_isFinite := hhigh
  between y hy := by
    cases hnan : y.isNaN with
    | true => exact .inl rfl
    | false =>
      have hbelow := (least_extreme l).bound y hy hnan
      have habove := (greatest_extreme l).bound y hy hnan
      exact .inr ⟨isFinite_of_le hlow hhigh hbelow habove, hbelow, habove⟩

/-- **Finite extremes**: a list has them when it has a finite number and no infinite one. -/
theorem extremes_isFinite_iff : (l.foldl least infinity).isFinite ∧
    (l.foldl greatest (-infinity)).isFinite ↔
      (∃ y ∈ l, y.isFinite) ∧ ∀ y ∈ l, y.isNaN ∨ y.isFinite := by
  constructor
  · rintro ⟨hlow, hhigh⟩
    have h := extremes_of_isFinite hlow hhigh
    exact ⟨⟨_, h.low_mem, h.low_isFinite⟩, fun y hy => (h.between y hy).imp_right And.left⟩
  · rintro ⟨hsome, hall⟩
    exact ⟨(least_extreme l).isFinite not_infinity_le hsome hall,
      (greatest_extreme l).isFinite not_le_neg_infinity hsome hall⟩

end CurveFit.Binary64

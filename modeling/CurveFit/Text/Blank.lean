/-!
# Blank characters

The characters with the Unicode property White_Space, and trimming a text of them.
-/

namespace CurveFit.Text

/-- The code points with the property White_Space, as closed ranges. -/
def blankRanges : List (Nat × Nat) :=
  [(0x9, 0xd), (0x20, 0x20), (0x85, 0x85), (0xa0, 0xa0), (0x1680, 0x1680), (0x2000, 0x200a),
   (0x2028, 0x2029), (0x202f, 0x202f), (0x205f, 0x205f), (0x3000, 0x3000)]

/-- White space in the sense of Unicode. -/
def isBlank (c : Char) : Bool := blankRanges.any fun r => r.1 ≤ c.toNat && c.toNat ≤ r.2

/-- A text without the blanks at its start. -/
def trimStart (s : List Char) : List Char := s.dropWhile isBlank

/-- A text without the blanks at its end. -/
def trimEnd (s : List Char) : List Char := (s.reverse.dropWhile isBlank).reverse

/-- A text without the blanks at either end. -/
def trim (s : List Char) : List Char := trimEnd (trimStart s)

/-- The ASCII white space of the core library is blank. -/
theorem isBlank_of_isWhitespace {c : Char} (h : c.isWhitespace = true) : isBlank c = true := by
  simp only [Char.isWhitespace, Bool.or_eq_true, decide_eq_true_eq] at h
  rcases h with ((rfl | rfl) | rfl) | rfl <;> decide

/-! ## What trimming leaves -/

/-- A text is a core with blanks around it, and the core neither starts nor ends with one. -/
structure Trimmed (text core : List Char) : Prop where
  between : ∃ before after, text = before ++ core ++ after ∧ before.all isBlank ∧ after.all isBlank
  starts : ∀ c ∈ core.head?, ¬ isBlank c
  ends : ∀ c ∈ core.getLast?, ¬ isBlank c

theorem trimStart_append {before s : List Char} (hbefore : before.all isBlank)
    (hs : ∀ c ∈ s.head?, ¬ isBlank c) : trimStart (before ++ s) = s := by
  unfold trimStart
  rw [List.dropWhile_append_of_pos (List.all_eq_true.mp hbefore)]
  cases s with
  | nil => rfl
  | cons c rest => exact List.dropWhile_cons_of_neg (hs c rfl)

theorem trimStart_of_blank {s : List Char} (h : s.all isBlank) : trimStart s = [] := by
  have hnothing : trimStart (s ++ []) = [] := trimStart_append h nofun
  rwa [List.append_nil] at hnothing

theorem exists_trimStart (s : List Char) :
    ∃ before, s = before ++ trimStart s ∧ before.all isBlank ∧
      ∀ c ∈ (trimStart s).head?, ¬ isBlank c := by
  refine ⟨s.takeWhile isBlank, List.takeWhile_append_dropWhile.symm, List.all_takeWhile, ?_⟩
  intro c hc
  have hhead := List.head?_dropWhile_not isBlank s
  rw [show (s.dropWhile isBlank).head? = some c from hc] at hhead
  exact Bool.eq_false_iff.mp hhead

theorem trimEnd_append {core after : List Char} (hafter : after.all isBlank)
    (hcore : ∀ c ∈ core.getLast?, ¬ isBlank c) : trimEnd (core ++ after) = core := by
  show (trimStart (core ++ after).reverse).reverse = core
  rw [List.reverse_append, trimStart_append, List.reverse_reverse]
  · rwa [List.all_reverse]
  · rwa [List.head?_reverse]

theorem exists_trimEnd (s : List Char) :
    ∃ after, s = trimEnd s ++ after ∧ after.all isBlank ∧
      ∀ c ∈ (trimEnd s).getLast?, ¬ isBlank c := by
  obtain ⟨after, hs, hafter, hlast⟩ := exists_trimStart s.reverse
  refine ⟨after.reverse, ?_, by rwa [List.all_reverse], ?_⟩
  · show s = (trimStart s.reverse).reverse ++ after.reverse
    rw [← List.reverse_append, ← hs, List.reverse_reverse]
  · show ∀ c ∈ (trimStart s.reverse).reverse.getLast?, ¬ isBlank c
    rwa [List.getLast?_reverse]

/-- Trimming leaves the core of a text. -/
theorem trim_eq_iff {text core : List Char} : trim text = core ↔ Trimmed text core := by
  unfold trim
  constructor
  · intro h
    obtain ⟨before, htext, hbefore, hstarts⟩ := exists_trimStart text
    obtain ⟨after, hrest, hafter, hends⟩ := exists_trimEnd (trimStart text)
    rw [h] at hrest hends
    refine ⟨⟨before, after, ?_, hbefore, hafter⟩, fun c hc => ?_, hends⟩
    · rw [List.append_assoc, ← hrest, ← htext]
    · refine hstarts c ?_
      rw [hrest, List.head?_append, show core.head? = some c from hc]
      rfl
  · rintro ⟨⟨before, after, rfl, hbefore, hafter⟩, hstarts, hends⟩
    cases core with
    | nil =>
      have hblank : (before ++ [] ++ after).all isBlank := by
        rw [List.append_nil, List.all_append, hbefore, hafter]
        rfl
      rw [trimStart_of_blank hblank]
      rfl
    | cons c rest =>
      have hfront : trimStart (before ++ (c :: rest ++ after)) = c :: rest ++ after :=
        trimStart_append hbefore hstarts
      rw [List.append_assoc, hfront, trimEnd_append hafter hends]

theorem exists_trimmed_iff {text : List Char} {P : List Char → Prop} :
    (∃ core, Trimmed text core ∧ P core) ↔ P (trim text) := by
  simp only [← trim_eq_iff, exists_eq_left']

end CurveFit.Text

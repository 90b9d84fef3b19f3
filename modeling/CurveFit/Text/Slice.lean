/-!
# Slices by bytes

Parts of a text between positions that count the bytes of its encoding in UTF-8.  At a position
inside a character nothing can be cut.
-/

namespace CurveFit.Text

/-- The number of bytes of a text. -/
def byteLength : List Char → Nat
  | [] => 0
  | c :: rest => c.utf8Size + byteLength rest

/-- A text cut after so many bytes, unless that is inside a character or beyond the end. -/
def cut? : Nat → List Char → Option (List Char × List Char)
  | 0, s => some ([], s)
  | _ + 1, [] => none
  | n + 1, c :: rest =>
    if c.utf8Size ≤ n + 1 then
      (cut? (n + 1 - c.utf8Size) rest).map fun (before, after) => (c :: before, after)
    else none

/-- The part between two positions. -/
def slice? (start stop : Nat) (s : List Char) : Option (List Char) := do
  let (_, rest) ← cut? start s
  let (part, _) ← cut? (stop - start) rest
  pure part

/-- A cut gives the two parts of a text whose first has so many bytes. -/
theorem cut?_eq_some_iff {n : Nat} {s before after : List Char} :
    cut? n s = some (before, after) ↔ s = before ++ after ∧ byteLength before = n := by
  induction s generalizing n before with
  | nil =>
    cases before with
    | nil => cases n <;> simp [cut?, byteLength]
    | cons d before => cases n <;> simp [cut?]
  | cons c rest ih =>
    have positive := c.utf8Size_pos
    cases n with
    | zero =>
      cases before with
      | nil => simp [cut?, byteLength, eq_comm]
      | cons d before =>
        have := d.utf8Size_pos
        simp only [cut?, byteLength, Option.some.injEq, Prod.mk.injEq, reduceCtorEq, false_and,
          false_iff, not_and]
        omega
    | succ n =>
      cases before with
      | nil => simp [cut?, byteLength]
      | cons d before =>
        simp only [cut?, byteLength, List.cons_append, List.cons.injEq]
        split
        · simp only [Option.map_eq_some_iff, Prod.exists, Prod.mk.injEq, List.cons.injEq]
          constructor
          · rintro ⟨a, b, h, ⟨rfl, rfl⟩, rfl⟩
            obtain ⟨rfl, h⟩ := ih.1 h
            exact ⟨⟨rfl, rfl⟩, by omega⟩
          · rintro ⟨⟨rfl, rfl⟩, h⟩
            exact ⟨before, after, ih.2 ⟨rfl, by omega⟩, ⟨rfl, rfl⟩, rfl⟩
        · simp only [reduceCtorEq, false_iff]
          rintro ⟨⟨rfl, _⟩, h⟩
          omega

end CurveFit.Text

import CurveFit.Json.Reader
import CurveFit.Json.Writer
import Mathlib.Data.List.Basic

/-!
# Strings in JSON

Each character of a string is written as one piece (`charPiece`), and the pieces are read back and
stand for the string.
-/

namespace CurveFit.Json

/-- The piece that a character is written as. -/
def charPiece (c : Char) : Piece :=
  if c = '"' then .escape '"'
  else if c = '\\' then .escape '\\'
  else if c = '\x08' then .escape 'b'
  else if c = '\x0c' then .escape 'f'
  else if c = '\n' then .escape 'n'
  else if c = '\x0d' then .escape 'r'
  else if c = '\t' then .escape 't'
  else if c.toNat < 32 then .unit c.toNat
  else .plain c

/-- The pieces that a string is written as. -/
def textPieces (s : String) : List Piece := s.toList.map charPiece

theorem hexUnit?_hexDigit :
    ∀ n < 32, hexUnit? '0' '0' (hexDigit (n / 16)) (hexDigit (n % 16)) = some n := by
  decide

theorem readPieces_plain {c : Char} (hquote : c ≠ '"') (hslash : c ≠ '\\') (hc : ¬ c.toNat < 32)
    (rest : List Char) (acc : List Piece) :
    readPieces (c :: rest) acc = readPieces rest (.plain c :: acc) := by
  conv_lhs => unfold readPieces
  split
  · exact absurd ‹_› (List.cons_ne_nil _ _)
  · exact absurd (List.cons.inj ‹_›).1 hquote
  · exact absurd (List.cons.inj ‹_›).1 hslash
  · exact absurd (List.cons.inj ‹_›).1 hslash
  · obtain ⟨rfl, rfl⟩ := List.cons.inj ‹_›
    exact if_neg (not_or.mpr ⟨hc, hslash⟩)

theorem readPieces_escape {e : Char} (hu : e ≠ 'u') (he : (escapeValue? e).isSome)
    (rest : List Char) (acc : List Piece) :
    readPieces ('\\' :: e :: rest) acc = readPieces rest (.escape e :: acc) := by
  conv_lhs => unfold readPieces
  split
  · exact absurd ‹_› (List.cons_ne_nil _ _)
  · exact absurd (List.cons.inj ‹_›).1 (by decide)
  · exact absurd (List.cons.inj (List.cons.inj ‹_›).2).1 hu
  · obtain ⟨-, hrest⟩ := List.cons.inj (‹_› : '\\' :: e :: rest = _)
    obtain ⟨rfl, rfl⟩ := List.cons.inj hrest
    exact if_pos he
  · rename_i hother heq
    obtain ⟨hslash, hrest⟩ := List.cons.inj heq
    exact (hother e rest hslash.symm hrest.symm).elim

theorem readPieces_unit {a b c d : Char} {n : ℕ} (h : hexUnit? a b c d = some n) (rest : List Char)
    (acc : List Piece) :
    readPieces ('\\' :: 'u' :: a :: b :: c :: d :: rest) acc = readPieces rest (.unit n :: acc) := by
  conv_lhs => unfold readPieces
  simp only [h]

/-- How a character is written: by a letter that escapes it, by its code, or as it is. -/
theorem charPiece_cases (c : Char) :
    (∃ e, escapeChar c = ['\\', e] ∧ charPiece c = .escape e ∧ e ≠ 'u' ∧
      escapeValue? e = some c) ∨
    (escapeChar c = ['\\', 'u', '0', '0', hexDigit (c.toNat / 16), hexDigit (c.toNat % 16)] ∧
      charPiece c = .unit c.toNat ∧ c.toNat < 32) ∨
    (escapeChar c = [c] ∧ charPiece c = .plain c ∧ c ≠ '"' ∧ c ≠ '\\' ∧ ¬ c.toNat < 32) := by
  unfold escapeChar charPiece
  split_ifs with hquote hslash _ _ _ _ _ hcontrol
  iterate 7 exact .inl ⟨_, rfl, rfl, by decide, by subst c; rfl⟩
  · exact .inr (.inl ⟨rfl, rfl, hcontrol⟩)
  · exact .inr (.inr ⟨rfl, rfl, hquote, hslash, hcontrol⟩)

/-- A character is read as its piece. -/
theorem readPieces_escapeChar (c : Char) (rest : List Char) (acc : List Piece) :
    readPieces (escapeChar c ++ rest) acc = readPieces rest (charPiece c :: acc) := by
  rcases charPiece_cases c with ⟨e, hchars, hpiece, hu, he⟩ | ⟨hchars, hpiece, hcontrol⟩ |
    ⟨hchars, hpiece, hquote, hslash, hcontrol⟩
  all_goals rw [hchars, hpiece]
  · exact readPieces_escape hu (he ▸ rfl) rest acc
  · exact readPieces_unit (hexUnit?_hexDigit _ hcontrol) rest acc
  · exact readPieces_plain hquote hslash hcontrol rest acc

theorem readPieces_flatMap (cs rest : List Char) (acc : List Piece) :
    readPieces (cs.flatMap escapeChar ++ '"' :: rest) acc =
      some (acc.reverse ++ cs.map charPiece, rest) := by
  induction cs generalizing acc with
  | nil =>
    rw [List.map_nil, List.append_nil]
    rfl
  | cons c cs ih =>
    rw [List.flatMap_cons, List.append_assoc, readPieces_escapeChar, ih, List.reverse_cons,
      List.append_assoc]
    rfl

/-- **A string** is read as its pieces. -/
theorem readPieces_quoted (s : String) (rest : List Char) :
    ∃ body, (quoted s).toList ++ rest = '"' :: body ∧
      readPieces body [] = some (textPieces s, rest) := by
  refine ⟨s.toList.flatMap escapeChar ++ '"' :: rest, ?_, readPieces_flatMap _ _ _⟩
  unfold quoted
  simp only [String.toList_append, String.toList_ofList, List.append_assoc]
  rfl

theorem decodePieces_unit {n : ℕ} (hn : n < 32) (rest : List Piece) :
    decodePieces (.unit n :: rest) = (decodePieces rest).map (Char.ofNat n :: ·) := by
  have hlow : ¬ (0xd800 ≤ n ∧ n < 0xe000) := by omega
  match rest with
  | [] => exact if_neg hlow
  | .plain c :: rest => exact if_neg hlow
  | .escape c :: rest => exact if_neg hlow
  | .unit lo :: rest =>
    show (if _ then _ else if _ then _ else _) = _
    rw [if_neg (by omega), if_neg (by omega)]

theorem decodePieces_charPiece (c : Char) (rest : List Piece) :
    decodePieces (charPiece c :: rest) = (decodePieces rest).map (c :: ·) := by
  rcases charPiece_cases c with ⟨e, -, hpiece, -, he⟩ | ⟨-, hpiece, hcontrol⟩ | ⟨-, hpiece, -⟩
  all_goals rw [hpiece]
  · conv_lhs => unfold decodePieces
    rw [he]
    cases decodePieces rest <;> rfl
  · rw [decodePieces_unit hcontrol, Char.ofNat_toNat]
  · rfl

/-- **The pieces of a string** stand for the string. -/
theorem decodeText_textPieces (s : String) : decodeText (textPieces s) = some s := by
  have hdecode : ∀ cs : List Char, decodePieces (cs.map charPiece) = some cs := by
    intro cs
    induction cs with
    | nil => rfl
    | cons c cs ih => rw [List.map_cons, decodePieces_charPiece, ih, Option.map_some]
  unfold decodeText textPieces
  rw [hdecode, Option.map_some, String.ofList_toList]

end CurveFit.Json

import CurveFit.Proofs.Json.Reals
import CurveFit.Proofs.Json.Strings

/-!
# Documents

What is written is read back: `Output.toValue` is the value that the indented text of an output is
read as.  Every nested value costs the reader a unit of depth and the text at least one character.
-/

namespace CurveFit.Json

open Text

/-! ## What is written -/

/-- A real number as a value: what is not finite is null. -/
def realValue (x : Float) : Value := if x.isFinite then .number (realNumeral x) else .null

mutual

/-- The value that an output is read back as. -/
def Output.toValue : Output → Value
  | .null => .null
  | .bool b => .bool b
  | .count n => .number (countNumeral n)
  | .real x => realValue x
  | .string s => .string (textPieces s)
  | .array items => .array (itemValues items)
  | .object members => .object (memberValues members)

/-- The values of items. -/
def itemValues : List Output → List Value
  | [] => []
  | v :: rest => v.toValue :: itemValues rest

/-- The values of members. -/
def memberValues : List (String × Output) → List (List Piece × Value)
  | [] => []
  | (k, v) :: rest => (textPieces k, v.toValue) :: memberValues rest

end

theorem itemValues_eq_map (items : List Output) : itemValues items = items.map Output.toValue := by
  induction items with
  | nil => rfl
  | cons v rest ih => exact congrArg (v.toValue :: ·) ih

/-! ## White space -/

theorem skipSpace_cons {c : Char} (hc : isSpace c = false) (s : List Char) :
    skipSpace (c :: s) = c :: s := by
  unfold skipSpace
  rw [List.dropWhile_cons_of_neg (by rw [hc]; exact Bool.false_ne_true)]

theorem skipSpace_skipSpace (s : List Char) : skipSpace (skipSpace s) = skipSpace s := by
  unfold skipSpace
  exact List.dropWhile_idempotent _ _

theorem skipSpace_newLine (level : ℕ) (s : List Char) :
    skipSpace ((newLine level).toList ++ s) = skipSpace s := by
  have hspace : ∀ c ∈ (newLine level).toList, isSpace c := by
    intro c hc
    unfold newLine copies at hc
    rw [String.toList_append] at hc
    rcases List.mem_append.mp hc with hline | hindent
    · exact List.eq_of_mem_singleton hline ▸ rfl
    · rw [String.toList_ofList] at hindent
      exact List.eq_of_mem_replicate hindent ▸ rfl
  unfold skipSpace
  exact List.dropWhile_append_of_pos hspace

theorem readValue_skipSpace (depth : ℕ) (s : List Char) :
    readValue depth (skipSpace s) = readValue depth s := by
  cases depth with
  | zero => rfl
  | succ depth =>
    unfold readValue
    rw [skipSpace_skipSpace]

theorem readItems_skipSpace (depth : ℕ) (s : List Char) (acc : List Value) :
    readItems depth (skipSpace s) acc = readItems depth s acc := by
  cases depth with
  | zero => rfl
  | succ depth =>
    unfold readItems
    rw [readValue_skipSpace]

theorem readMembers_skipSpace (depth : ℕ) (s : List Char) (acc : List (List Piece × Value)) :
    readMembers depth (skipSpace s) acc = readMembers depth s acc := by
  cases depth with
  | zero => rfl
  | succ depth =>
    unfold readMembers
    rw [skipSpace_skipSpace]

theorem not_isSpace_of_isDigit {c : Char} (h : c.isDigit) : ¬ isSpace c := by
  intro hspace
  unfold isSpace at hspace
  simp only [Bool.or_eq_true, decide_eq_true_eq] at hspace
  rcases hspace with ((rfl | rfl) | rfl) | rfl <;> cases h

theorem Numeral.Proper.text_eq_cons {n : Numeral} (hn : n.Proper) :
    ∃ c cs, n.text = c :: cs ∧ (c = '-' ∨ c.isDigit) := by
  obtain ⟨hne, hdigits⟩ := hn.whole
  obtain ⟨c, cs, hwhole⟩ := List.exists_cons_of_ne_nil hne
  unfold Numeral.text signChars
  rw [hwhole]
  split_ifs
  · exact ⟨_, _, rfl, .inl rfl⟩
  · exact ⟨_, _, rfl, .inr (hdigits c (by rw [hwhole]; exact List.mem_cons_self))⟩

/-! ## One step of the reader -/

section Steps

variable {depth : ℕ} {s rest t : List Char} {v : Value}

theorem readValue_numeral {n : Numeral} (hn : n.Proper) (hrest : EndsNumeral rest) :
    readValue (depth + 1) (n.text ++ rest) = some (.number n, rest) := by
  obtain ⟨c, cs, htext, hc⟩ := hn.text_eq_cons
  have hspace : isSpace c = false := by
    rcases hc with rfl | hdigit
    · rfl
    · exact Bool.eq_false_iff.mpr fun h => not_isSpace_of_isDigit hdigit h
  unfold readValue
  rw [htext, List.cons_append, skipSpace_cons hspace]
  split
  iterate 6
    rename_i heq
    obtain ⟨rfl, -⟩ := List.cons.inj heq
    exact absurd hc (by decide)
  rw [← List.cons_append, ← htext, readNumeral_text hn hrest]
  rfl

theorem readValue_null : readValue (depth + 1) ("null".toList ++ rest) = some (.null, rest) := rfl

theorem readValue_bool (b : Bool) :
    readValue (depth + 1) ((if b then "true" else "false").toList ++ rest) = some (.bool b, rest) := by
  cases b <;> rfl

theorem readValue_emptyArray :
    readValue (depth + 1) ("[]".toList ++ rest) = some (.array [], rest) := rfl

theorem readValue_emptyObject :
    readValue (depth + 1) ("\x7b\x7d".toList ++ rest) = some (.object [], rest) := rfl

theorem readValue_string (hs : skipSpace s = '"' :: rest) :
    readValue (depth + 1) s = (readPieces rest []).map fun (ps, t) => (.string ps, t) := by
  unfold readValue
  rw [hs]
  rfl

theorem readValue_array (hs : skipSpace s = '[' :: rest) (hrest : (skipSpace rest).head? ≠ some ']') :
    readValue (depth + 1) s = (readItems depth rest []).map fun (vs, t) => (.array vs, t) := by
  unfold readValue
  simp only [hs]
  rw [← readItems_skipSpace]
  split
  · rename_i hclose
    exact absurd (by rw [hclose]; rfl) hrest
  · rfl

theorem readValue_object (hs : skipSpace s = '\x7b' :: rest)
    (hrest : (skipSpace rest).head? ≠ some '\x7d') :
    readValue (depth + 1) s = (readMembers depth rest []).map fun (ms, t) => (.object ms, t) := by
  unfold readValue
  simp only [hs]
  rw [← readMembers_skipSpace]
  split
  · rename_i hclose
    exact absurd (by rw [hclose]; rfl) hrest
  · rfl

theorem readItems_next {acc : List Value} (hv : readValue depth s = some (v, rest))
    (hrest : skipSpace rest = ',' :: t) :
    readItems (depth + 1) s acc = readItems depth t (v :: acc) := by
  conv_lhs => unfold readItems
  simp only [hv, hrest]

theorem readItems_last {acc : List Value} (hv : readValue depth s = some (v, rest))
    (hrest : skipSpace rest = ']' :: t) :
    readItems (depth + 1) s acc = some ((v :: acc).reverse, t) := by
  unfold readItems
  simp only [hv, hrest]

variable {body mid after : List Char} {key : List Piece} {acc : List (List Piece × Value)}

theorem readMembers_next (hs : skipSpace s = '"' :: body)
    (hkey : readPieces body [] = some (key, mid)) (hmid : skipSpace mid = ':' :: after)
    (hv : readValue depth after = some (v, rest)) (hrest : skipSpace rest = ',' :: t) :
    readMembers (depth + 1) s acc = readMembers depth t ((key, v) :: acc) := by
  conv_lhs => unfold readMembers
  simp only [hs, hkey, hmid, hv, hrest]

theorem readMembers_last (hs : skipSpace s = '"' :: body)
    (hkey : readPieces body [] = some (key, mid)) (hmid : skipSpace mid = ':' :: after)
    (hv : readValue depth after = some (v, rest)) (hrest : skipSpace rest = '\x7d' :: t) :
    readMembers (depth + 1) s acc = some (((key, v) :: acc).reverse, t) := by
  unfold readMembers
  simp only [hs, hkey, hmid, hv, hrest]

end Steps

/-! ## The text of a value -/

/-- A text whose first character is one that a value may start with. -/
def Opens (s : List Char) : Prop :=
  ∃ c cs, s = c :: cs ∧ isSpace c = false ∧ c ≠ ']' ∧ c ≠ '\x7d'

theorem Opens.skipSpace {s : List Char} (h : Opens s) (t : List Char) :
    skipSpace (s ++ t) = s ++ t := by
  obtain ⟨c, cs, rfl, hc, -⟩ := h
  exact skipSpace_cons hc _

theorem Opens.append {s : List Char} (h : Opens s) (t : List Char) : Opens (s ++ t) := by
  obtain ⟨c, cs, rfl, hc⟩ := h
  exact ⟨c, cs ++ t, rfl, hc⟩

theorem Opens.head?_ne {s : List Char} (h : Opens s) :
    s.head? ≠ some ']' ∧ s.head? ≠ some '\x7d' := by
  obtain ⟨c, cs, rfl, -, hitem, hmember⟩ := h
  exact ⟨fun h => hitem (Option.some.inj h), fun h => hmember (Option.some.inj h)⟩

theorem Numeral.Proper.opens {n : Numeral} (hn : n.Proper) : Opens n.text := by
  obtain ⟨c, cs, htext, hc⟩ := hn.text_eq_cons
  refine ⟨c, cs, htext, ?_⟩
  rcases hc with rfl | hdigit
  · decide
  · refine ⟨Bool.eq_false_iff.mpr (not_isSpace_of_isDigit hdigit), ?_, ?_⟩ <;> rintro rfl <;>
      cases hdigit

theorem opens_quoted (s : String) : Opens (quoted s).toList := by
  refine ⟨'"', s.toList.flatMap escapeChar ++ ['"'], ?_, by decide⟩
  unfold quoted
  simp only [String.toList_append, String.toList_ofList, List.append_assoc]
  rfl

/-- The indented text of a real number. -/
theorem render_eq (x : Float) : (∃ n : Numeral, n.Proper ∧
    (NumberStyle.json.render x).toList = n.text ∧ realValue x = .number n) ∨
    NumberStyle.json.render x = "null" ∧ realValue x = .null := by
  unfold realValue
  by_cases hx : x.isFinite
  · exact .inl ⟨_, realNumeral_proper hx, render_toList hx, if_pos hx⟩
  · exact .inr ⟨render_of_not_isFinite hx, if_neg hx⟩

section Layout

variable (level : ℕ) (v : Output) (k : String)

theorem pretty_array {items : List Output} (h : items ≠ []) :
    (Output.pretty level (.array items)).toList =
      '[' :: ((prettyItems (level + 1) items).toList ++ ((newLine level).toList ++ [']'])) := by
  cases items with
  | nil => exact absurd rfl h
  | cons v items =>
    rw [Output.pretty]
    · simp only [String.toList_append, List.append_assoc]
      rfl
    · exact List.cons_ne_nil _ _

theorem pretty_object {members : List (String × Output)} (h : members ≠ []) :
    (Output.pretty level (.object members)).toList =
      '\x7b' :: ((prettyMembers (level + 1) members).toList ++
        ((newLine level).toList ++ ['\x7d'])) := by
  cases members with
  | nil => exact absurd rfl h
  | cons m members =>
    rw [Output.pretty]
    · simp only [String.toList_append, List.append_assoc]
      rfl
    · exact List.cons_ne_nil _ _

theorem prettyItems_one :
    (prettyItems level [v]).toList = (newLine level).toList ++ (v.pretty level).toList :=
  String.toList_append

theorem prettyItems_cons {items : List Output} (h : items ≠ []) :
    (prettyItems level (v :: items)).toList =
      (newLine level).toList ++ ((v.pretty level).toList ++ ',' :: (prettyItems level items).toList) := by
  rw [prettyItems]
  · simp only [String.toList_append, List.append_assoc]
    rfl
  · exact h

theorem prettyMembers_one :
    (prettyMembers level [(k, v)]).toList =
      (newLine level).toList ++ ((quoted k).toList ++ ':' :: ' ' :: (v.pretty level).toList) := by
  rw [prettyMembers]
  simp only [String.toList_append, List.append_assoc]
  rfl

theorem prettyMembers_cons {members : List (String × Output)} (h : members ≠ []) :
    (prettyMembers level ((k, v) :: members)).toList =
      (newLine level).toList ++ ((quoted k).toList ++ ':' :: ' ' ::
        ((v.pretty level).toList ++ ',' :: (prettyMembers level members).toList)) := by
  rw [prettyMembers]
  · simp only [String.toList_append, List.append_assoc]
    rfl
  · exact h

theorem newLine_pos : 0 < (newLine level).toList.length := by
  unfold newLine
  rw [String.toList_append, List.length_append]
  exact Nat.add_pos_left Nat.one_pos _

end Layout

theorem opens_pretty (o : Output) (level : ℕ) : Opens (o.pretty level).toList := by
  have hword : Opens "null".toList ∧ Opens "true".toList ∧ Opens "false".toList ∧
      Opens "[]".toList ∧ Opens "\x7b\x7d".toList :=
    ⟨⟨_, _, rfl, by decide⟩, ⟨_, _, rfl, by decide⟩, ⟨_, _, rfl, by decide⟩,
      ⟨_, _, rfl, by decide⟩, ⟨_, _, rfl, by decide⟩⟩
  obtain ⟨hnull, htrue, hfalse, harray, hobject⟩ := hword
  match o with
  | .null => exact hnull
  | .bool true => exact htrue
  | .bool false => exact hfalse
  | .count n => exact countNumeral_text n ▸ (countNumeral_proper n).opens
  | .real x =>
    show Opens (NumberStyle.json.render x).toList
    rcases render_eq x with ⟨n, hn, htext, -⟩ | ⟨htext, -⟩
    · exact htext ▸ hn.opens
    · exact htext ▸ hnull
  | .string s => exact opens_quoted s
  | .array [] => exact harray
  | .array (v :: items) =>
    exact ⟨'[', _, pretty_array level (List.cons_ne_nil v items), by decide⟩
  | .object [] => exact hobject
  | .object (m :: members) =>
    exact ⟨'\x7b', _, pretty_object level (List.cons_ne_nil m members), by decide⟩

theorem opens_prettyItems (level : ℕ) {items : List Output} (h : items ≠ []) (s : List Char) :
    Opens (skipSpace ((prettyItems level items).toList ++ s)) := by
  obtain ⟨v, items, rfl⟩ := List.exists_cons_of_ne_nil h
  obtain ⟨t, ht⟩ : ∃ t, (prettyItems level (v :: items)).toList =
      (newLine level).toList ++ ((v.pretty level).toList ++ t) := by
    cases items with
    | nil => exact ⟨[], by rw [prettyItems_one, List.append_nil]⟩
    | cons w items => exact ⟨_, prettyItems_cons level v (List.cons_ne_nil w items)⟩
  rw [ht, List.append_assoc, skipSpace_newLine, List.append_assoc,
    (opens_pretty v level).skipSpace]
  exact (opens_pretty v level).append _

theorem opens_prettyMembers (level : ℕ) {members : List (String × Output)} (h : members ≠ [])
    (s : List Char) : Opens (skipSpace ((prettyMembers level members).toList ++ s)) := by
  obtain ⟨⟨k, v⟩, members, rfl⟩ := List.exists_cons_of_ne_nil h
  obtain ⟨t, ht⟩ : ∃ t, (prettyMembers level ((k, v) :: members)).toList =
      (newLine level).toList ++ ((quoted k).toList ++ t) := by
    cases members with
    | nil => exact ⟨_, prettyMembers_one level v k⟩
    | cons m members => exact ⟨_, prettyMembers_cons level v k (List.cons_ne_nil m members)⟩
  rw [ht, List.append_assoc, skipSpace_newLine, List.append_assoc, (opens_quoted k).skipSpace]
  exact (opens_quoted k).append _

/-! ## Reading what is written -/

theorem endsNumeral_newLine (level : ℕ) (s : List Char) :
    EndsNumeral ((newLine level).toList ++ s) := by
  have hhead : ((newLine level).toList ++ s).head? = some '\n' := by
    unfold newLine
    rw [String.toList_append]
    rfl
  unfold EndsNumeral
  rw [hhead]
  rintro _ ⟨⟩
  decide

theorem endsNumeral_comma (s : List Char) : EndsNumeral (',' :: s) := by
  rintro _ ⟨⟩
  decide

theorem readValue_newLine (depth level : ℕ) (s : List Char) :
    readValue depth ((newLine level).toList ++ s) = readValue depth s := by
  rw [← readValue_skipSpace, skipSpace_newLine, readValue_skipSpace]

theorem readValue_blank (depth : ℕ) (s : List Char) :
    readValue depth (' ' :: s) = readValue depth s := by
  rw [← readValue_skipSpace depth s, ← readValue_skipSpace]
  rfl

/-- A member on a line of its own starts with its name. -/
theorem readPieces_name (level : ℕ) (k : String) (s : List Char) :
    ∃ body, skipSpace ((newLine level).toList ++ ((quoted k).toList ++ s)) = '"' :: body ∧
      readPieces body [] = some (textPieces k, s) := by
  obtain ⟨body, hquoted, hkey⟩ := readPieces_quoted k s
  refine ⟨body, ?_, hkey⟩
  rw [skipSpace_newLine, (opens_quoted k).skipSpace, hquoted]

mutual

/-- The text of an output is read as its value. -/
theorem readValue_pretty (o : Output) (level depth : ℕ) (rest : List Char)
    (hrest : EndsNumeral rest) (hdepth : (o.pretty level).toList.length < depth) :
    readValue depth ((o.pretty level).toList ++ rest) = some (o.toValue, rest) := by
  obtain ⟨depth, rfl⟩ := Nat.exists_eq_add_one_of_ne_zero (Nat.ne_zero_of_lt hdepth)
  cases o with
  | null => exact readValue_null
  | bool b => exact readValue_bool b
  | count n =>
    show readValue (depth + 1) ((toString n).toList ++ rest) = _
    rw [countNumeral_text, readValue_numeral (countNumeral_proper n) hrest]
    rfl
  | real x =>
    show readValue (depth + 1) ((NumberStyle.json.render x).toList ++ rest) = some (realValue x, rest)
    rcases render_eq x with ⟨n, hn, htext, hvalue⟩ | ⟨htext, hvalue⟩
    · rw [htext, hvalue, readValue_numeral hn hrest]
    · rw [htext, hvalue]
      exact readValue_null
  | string s =>
    obtain ⟨body, hquoted, hread⟩ := readPieces_quoted s rest
    show readValue (depth + 1) ((quoted s).toList ++ rest) = _
    rw [hquoted, readValue_string (skipSpace_cons rfl _), hread]
    rfl
  | array items =>
    cases items with
    | nil => exact readValue_emptyArray
    | cons v items =>
      have hne := List.cons_ne_nil v items
      rw [pretty_array level hne] at hdepth ⊢
      rw [List.length_cons, List.length_append] at hdepth
      simp only [List.cons_append, List.append_assoc, List.nil_append]
      rw [readValue_array (skipSpace_cons rfl _) (opens_prettyItems _ hne _).head?_ne.1,
        readItems_pretty _ hne _ _ _ _ _ (by omega)]
      rfl
  | object members =>
    cases members with
    | nil => exact readValue_emptyObject
    | cons m members =>
      have hne := List.cons_ne_nil m members
      rw [pretty_object level hne] at hdepth ⊢
      rw [List.length_cons, List.length_append] at hdepth
      simp only [List.cons_append, List.append_assoc, List.nil_append]
      rw [readValue_object (skipSpace_cons rfl _) (opens_prettyMembers _ hne _).head?_ne.2,
        readMembers_pretty _ hne _ _ _ _ _ (by omega)]
      rfl

/-- The text of items is read as their values. -/
theorem readItems_pretty (items : List Output) (hne : items ≠ []) (level close depth : ℕ)
    (rest : List Char) (acc : List Value) (hdepth : (prettyItems level items).toList.length < depth) :
    readItems depth ((prettyItems level items).toList ++ ((newLine close).toList ++ ']' :: rest)) acc =
      some (acc.reverse ++ itemValues items, rest) := by
  obtain ⟨depth, rfl⟩ := Nat.exists_eq_add_one_of_ne_zero (Nat.ne_zero_of_lt hdepth)
  have hline := newLine_pos level
  cases items with
  | nil => exact absurd rfl hne
  | cons v items =>
    cases items with
    | nil =>
      rw [prettyItems_one] at hdepth ⊢
      rw [List.length_append] at hdepth
      rw [List.append_assoc]
      have hvalue := readValue_pretty v level depth ((newLine close).toList ++ ']' :: rest)
        (endsNumeral_newLine close _) (by omega)
      rw [← readValue_newLine depth level] at hvalue
      have hclose : skipSpace ((newLine close).toList ++ ']' :: rest) = ']' :: rest := by
        rw [skipSpace_newLine, skipSpace_cons rfl]
      rw [readItems_last hvalue hclose, List.reverse_cons]
      rfl
    | cons w items =>
      have hne' := List.cons_ne_nil w items
      rw [prettyItems_cons level v hne'] at hdepth ⊢
      rw [List.length_append, List.length_append, List.length_cons] at hdepth
      simp only [List.cons_append, List.append_assoc]
      have hvalue := readValue_pretty v level depth _ (endsNumeral_comma
        ((prettyItems level (w :: items)).toList ++ ((newLine close).toList ++ ']' :: rest))) (by omega)
      rw [← readValue_newLine depth level] at hvalue
      rw [readItems_next hvalue (skipSpace_cons rfl _),
        readItems_pretty _ hne' _ _ _ _ _ (by omega), List.reverse_cons, List.append_assoc]
      rfl

/-- The text of members is read as their names and values. -/
theorem readMembers_pretty (members : List (String × Output)) (hne : members ≠ [])
    (level close depth : ℕ) (rest : List Char) (acc : List (List Piece × Value))
    (hdepth : (prettyMembers level members).toList.length < depth) :
    readMembers depth
        ((prettyMembers level members).toList ++ ((newLine close).toList ++ '\x7d' :: rest)) acc =
      some (acc.reverse ++ memberValues members, rest) := by
  obtain ⟨depth, rfl⟩ := Nat.exists_eq_add_one_of_ne_zero (Nat.ne_zero_of_lt hdepth)
  have hline := newLine_pos level
  cases members with
  | nil => exact absurd rfl hne
  | cons pair members =>
    obtain ⟨k, v⟩ := pair
    cases members with
    | nil =>
      rw [prettyMembers_one] at hdepth ⊢
      rw [List.length_append, List.length_append, List.length_cons, List.length_cons] at hdepth
      simp only [List.cons_append, List.append_assoc]
      have hvalue := readValue_pretty v level depth ((newLine close).toList ++ '\x7d' :: rest)
        (endsNumeral_newLine close _) (by omega)
      rw [← readValue_blank] at hvalue
      obtain ⟨body, hopen, hkey⟩ := readPieces_name level k _
      have hclose : skipSpace ((newLine close).toList ++ '\x7d' :: rest) = '\x7d' :: rest := by
        rw [skipSpace_newLine, skipSpace_cons rfl]
      rw [readMembers_last hopen hkey (skipSpace_cons rfl _) hvalue hclose, List.reverse_cons]
      rfl
    | cons m members =>
      have hne' := List.cons_ne_nil m members
      rw [prettyMembers_cons level v k hne'] at hdepth ⊢
      simp only [List.length_append, List.length_cons] at hdepth
      simp only [List.cons_append, List.append_assoc]
      have hvalue := readValue_pretty v level depth _ (endsNumeral_comma
        ((prettyMembers level (m :: members)).toList ++ ((newLine close).toList ++ '\x7d' :: rest)))
        (by omega)
      rw [← readValue_blank] at hvalue
      obtain ⟨body, hopen, hkey⟩ := readPieces_name level k _
      rw [readMembers_next hopen hkey (skipSpace_cons rfl _) hvalue (skipSpace_cons rfl _),
        readMembers_pretty _ hne' _ _ _ _ _ (by omega), List.reverse_cons, List.append_assoc]
      rfl

end

/-- **A document** is read as the value that was written. -/
theorem read?_pretty (o : Output) : read? (o.pretty 0) = some o.toValue := by
  have hread := readValue_pretty o 0 (2 * (o.pretty 0).toList.length + 2) [] nofun (by omega)
  rw [List.append_nil] at hread
  unfold read?
  dsimp only
  rw [hread]
  rfl

end CurveFit.Json

import CurveFit.Proofs.Json.Documents
import CurveFit.Proofs.Json.Scaling

/-!
# Taking records apart

`Gives o p b` says when a reader has an answer and which one.  The readers of counts, texts, lists
and records are given as such rules, one for each way to write, so that the rule for a file follows
from those for its fields by `Gives.bind`.

A record that has been written otherwise has entries, in any order, and its fields are the values that
stand under their names (`fields?_eq_some_iff`).
-/

namespace CurveFit.Json

open Text

/-! ## When a reader answers -/

/-- Under the condition `p`, and only then, there is an answer, and it is `b`. -/
structure Gives {β : Type} (o : Option β) (p : Prop) (b : β) : Prop where
  answer : p → o = some b
  only : o.isSome → p

namespace Gives

variable {β γ : Type} {o : Option β} {p q : Prop} {b : β}

theorem of_eq (h : o = some b) : Gives o True b := ⟨fun _ => h, fun _ => trivial⟩

theorem of_ite [Decidable p] (h : o = if p then some b else none) : Gives o p b := by
  refine ⟨fun hp => h.trans (if_pos hp), fun hsome => ?_⟩
  by_contra hp
  rw [h, if_neg hp] at hsome
  cases hsome

theorem congr (h : Gives o p b) (hpq : p ↔ q) : Gives o q b :=
  ⟨fun hq => h.answer (hpq.mpr hq), fun hsome => hpq.mp (h.only hsome)⟩

/-- One reader after another. -/
theorem bind {f : β → Option γ} {c : γ} (h : Gives o p b) (hf : Gives (f b) q c) :
    Gives (o >>= f) (p ∧ q) c := by
  refine ⟨fun ⟨hp, hq⟩ => (congrArg (· >>= f) (h.answer hp)).trans (hf.answer hq), fun hsome => ?_⟩
  obtain ⟨b', hb'⟩ : ∃ b', o = some b' := by
    cases o with
    | none => cases hsome
    | some b' => exact ⟨b', rfl⟩
  have hp := h.only (by rw [hb']; rfl)
  obtain rfl : b = b' := Option.some.inj ((h.answer hp).symm.trans hb')
  rw [hb'] at hsome
  exact ⟨hp, hf.only hsome⟩

theorem map (h : Gives o p b) (f : β → γ) : Gives (o.map f) p (f b) :=
  ⟨fun hp => by rw [h.answer hp]; rfl, fun hsome => h.only (by rwa [Option.isSome_map] at hsome)⟩

end Gives

/-! ## Numbers and texts -/

/-- The number that a finite number is read back as. -/
def reread (x : Float) : Float := (reread? x).getD x

theorem gives_real (x : Float) : Gives (Output.real x).toValue.real? x.isFinite (reread x) := by
  show Gives (realValue x).real? _ _
  unfold realValue
  by_cases hx : x.isFinite
  · obtain ⟨y, hy⟩ := Option.isSome_iff_exists.mp (isSome_reread? hx)
    rw [if_pos hx]
    refine ⟨fun _ => ?_, fun _ => hx⟩
    show (realNumeral x).toReal? = _
    unfold reread
    rw [toReal?_realNumeral hx, hy]
    rfl
  · rw [if_neg hx]
    exact ⟨fun h => absurd h hx, nofun⟩

theorem gives_count (n : ℕ) : Gives (Output.count n).toValue.count? (n ≤ maxCount) n :=
  .of_ite (toCount?_countNumeral n)

theorem gives_text (s : String) : Gives (Output.string s).toValue.text? True s :=
  .of_eq (decodeText_textPieces s)

theorem gives_choice (s : String) : Gives (Output.string s).toValue.choice? True s :=
  .of_eq (decodeText_textPieces s)

theorem gives_bool (b : Bool) : Gives (Output.bool b).toValue.bool? True b := .of_eq rfl

/-! ## Lists -/

section Lists

variable {α β : Type} {write : α → Output} {read : Value → Option β} {p : α → Prop} {f : α → β}

theorem gives_list (h : ∀ a, Gives (read (write a).toValue) (p a) (f a)) (xs : List α) :
    Gives ((Output.array (xs.map write)).toValue.list? read) (∀ a ∈ xs, p a) (xs.map f) := by
  show Gives ((itemValues (xs.map write)).mapM read) _ _
  rw [itemValues_eq_map]
  induction xs with
  | nil => exact .congr (.of_eq rfl) (by simp)
  | cons a xs ih =>
    rw [List.map_cons, List.map_cons, List.mapM_cons, List.map_cons]
    refine Gives.congr (Gives.bind (h a) (Gives.bind ih (Gives.of_eq ?_))) ?_
    · rfl
    · rw [and_true, List.forall_mem_cons]

end Lists

/-! ## Records -/

section Records

theorem mapM_map_eq_some {α β γ : Type} {k : α → γ} {g : γ → Option β} {h : α → β} {xs : List α}
    (hg : ∀ a ∈ xs, g (k a) = some (h a)) : (xs.map k).mapM g = some (xs.map h) := by
  induction xs with
  | nil => rfl
  | cons a xs ih =>
    rw [List.map_cons, List.mapM_cons, hg a List.mem_cons_self,
      ih fun a' ha' => hg a' (List.mem_cons_of_mem a ha')]
    rfl

theorem memberValues_eq_map (members : List (String × Output)) :
    memberValues members = members.map fun m => (textPieces m.1, m.2.toValue) := by
  induction members with
  | nil => rfl
  | cons m members ih => exact congrArg ((textPieces m.1, m.2.toValue) :: ·) ih

/-- The names of members are read back. -/
theorem decoded_members (members : List (String × Output)) :
    ((memberValues members).mapM fun (key, v) => (decodeText key).map fun k => (k, v)) =
      some (members.map fun m => (m.1, m.2.toValue)) := by
  rw [memberValues_eq_map]
  refine mapM_map_eq_some fun m _ => ?_
  show (decodeText (textPieces m.1)).map _ = _
  rw [decodeText_textPieces]
  rfl

/-- Among members with different names one is found by its name. -/
theorem filter_name {β : Type} {keyed : List (String × β)} (hnodup : (keyed.map (·.1)).Nodup)
    {k : String} {b : β} (h : (k, b) ∈ keyed) : keyed.filter (·.1 == k) = [(k, b)] := by
  induction keyed with
  | nil => cases h
  | cons m keyed ih =>
    rw [List.map_cons, List.nodup_cons] at hnodup
    rcases List.mem_cons.mp h with rfl | hmem
    · have hothers : keyed.filter (·.1 == k) = [] := List.filter_eq_nil_iff.mpr fun m' hm' hname =>
        hnodup.1 (List.mem_map.mpr ⟨m', hm', eq_of_beq hname⟩)
      rw [List.filter_cons, if_pos (beq_self_eq_true k), hothers]
    · have hother : ¬ (m.1 == k) = true := fun hname =>
        hnodup.1 (List.mem_map.mpr ⟨_, hmem, (eq_of_beq hname).symm⟩)
      rw [List.filter_cons, if_neg hother, ih hnodup.2 hmem]

/-- A record with different names is taken apart into its values; the names it lacks have none. -/
theorem fields?_object (members : List (String × Output)) (lacking : List String)
    (hnodup : (members.map (·.1) ++ lacking).Nodup) :
    (Output.object members).toValue.fields? (members.map (·.1) ++ lacking) =
      some (members.map (fun m => some m.2.toValue) ++ lacking.map fun _ => none) := by
  have hnames : ((members.map fun m => (m.1, m.2.toValue)).map (·.1)) = members.map (·.1) := by
    rw [List.map_map]
    rfl
  obtain ⟨hmembers, -, hdisjoint⟩ := List.nodup_append.mp hnodup
  show ((memberValues members).mapM _ >>= _) = _
  rw [decoded_members]
  show (members.map (·.1) ++ lacking).mapM _ = _
  rw [List.mapM_append, mapM_map_eq_some (h := fun m => some m.2.toValue) fun m hm => ?found,
    ← List.map_id lacking, mapM_map_eq_some (h := fun _ => none) fun name hname => ?lacking,
    List.map_id]
  case found =>
    have hmem : (m.1, m.2.toValue) ∈ members.map fun m => (m.1, m.2.toValue) :=
      List.mem_map.mpr ⟨m, hm, rfl⟩
    rw [filter_name (hnames ▸ hmembers) hmem]
  case lacking =>
    have hnone : (members.map fun m => (m.1, m.2.toValue)).filter (·.1 == id name) = [] := by
      refine List.filter_eq_nil_iff.mpr fun m hm heq => ?_
      refine hdisjoint m.1 ?_ name hname (eq_of_beq heq)
      rw [← hnames]
      exact List.mem_map_of_mem hm
    rw [hnone]
  rfl

variable {β : Type} {read : Value → Option β} {v : Value} {p : Prop} {b : β}

theorem Gives.required (h : Gives (read v) p b) : Gives (Json.required read (some v)) p b := h

theorem Gives.optional (h : Gives (read v) p b) (hv : v ≠ .null) :
    Gives (Json.optional read (some v)) p (some b) := by
  have hread : Json.optional read (some v) = (read v).map some := by
    cases v with
    | null => exact absurd rfl hv
    | _ => rfl
  rw [hread]
  exact h.map some

end Records

/-! ## Records in any form -/

section Entries

/-- The entries of a record: the members of an object under their names, or the items of an array
under the names in their order. -/
def Value.entries? (names : List String) : Value → Option (List (String × Value))
  | .object members => members.mapM fun (key, v) => (decodeText key).map fun k => (k, v)
  | .array items => if items.length ≤ names.length then some (names.zip items) else none
  | _ => none

/-- The values that stand under a name. -/
def under (name : String) (entries : List (String × Value)) : List Value :=
  (entries.filter (·.1 == name)).map (·.2)

theorem mapM_eq_some_iff {α β γ : Type} {g : α → Option β} {k : α → γ} {t : β → γ}
    (hg : ∀ a b, g a = some b ↔ k a = t b) {xs : List α} {bs : List β} :
    xs.mapM g = some bs ↔ xs.map k = bs.map t := by
  induction xs generalizing bs with
  | nil => cases bs <;> simp
  | cons a xs ih => cases bs <;> simp [Option.bind_eq_some_iff, hg, ih]

theorem under_cons (name : String) (entry : String × Value) (entries : List (String × Value)) :
    under name (entry :: entries) =
      if entry.1 = name then entry.2 :: under name entries else under name entries := by
  unfold under
  by_cases h : entry.1 = name <;> simp [h]

theorem under_eq_nil {name : String} {entries : List (String × Value)}
    (h : ∀ entry ∈ entries, entry.1 ≠ name) : under name entries = [] := by
  unfold under
  rw [List.filter_eq_nil_iff.mpr fun entry hentry => by simpa using h entry hentry]
  rfl

/-- The items of an array stand under the names in their order, the last names without one. -/
theorem under_zip {names : List String} (hnames : names.Nodup) {items : List Value}
    (hlen : items.length ≤ names.length) :
    names.map (fun name => under name (names.zip items)) =
      (items.map some ++ List.replicate (names.length - items.length) none).map Option.toList := by
  induction names generalizing items with
  | nil =>
    obtain rfl : items = [] := List.eq_nil_of_length_eq_zero (Nat.le_zero.mp hlen)
    rfl
  | cons name names ih =>
    obtain ⟨hname, hnames⟩ := List.nodup_cons.mp hnames
    cases items with
    | nil => simp [under, List.replicate_succ]
    | cons item items =>
      have hrest := ih hnames (Nat.le_of_succ_le_succ hlen)
      have hothers : ∀ entry ∈ names.zip items, entry.1 ≠ name := by
        rintro ⟨_, v⟩ hentry rfl
        exact hname (List.of_mem_zip hentry).1
      have hshift : ∀ other ∈ names, under other ((name, item) :: names.zip items) =
          under other (names.zip items) := by
        rintro other hother
        rw [under_cons, if_neg]
        rintro rfl
        exact hname hother
      rw [List.map_cons, List.zip_cons_cons, List.map_congr_left hshift, hrest, under_cons,
        if_pos rfl, under_eq_nil hothers]
      simp

theorem toList_injective {β : Type} : Function.Injective (Option.toList (α := β)) := by
  intro a b h
  cases a <;> cases b <;> simp_all

/-- **Records.**  The values of a record's fields are those under their names, one at most. -/
theorem fields?_eq_some_iff {names : List String} (hnames : names.Nodup) {v : Value}
    {fields : List (Option Value)} : v.fields? names = some fields ↔
      ∃ entries, v.entries? names = some entries ∧
        names.map (fun name => under name entries) = fields.map Option.toList := by
  cases v with
  | object members =>
    refine Option.bind_eq_some_iff.trans (exists_congr fun entries => and_congr_right fun _ => ?_)
    refine mapM_eq_some_iff fun name field => ?_
    unfold under
    generalize entries.filter (·.1 == name) = found
    rcases found with _ | ⟨entry, _ | ⟨other, rest⟩⟩ <;> cases field <;> simp
  | array items =>
    unfold Value.fields? Value.entries?
    by_cases hlen : items.length ≤ names.length
    · simp only [if_pos hlen, Option.some.injEq, exists_eq_left']
      rw [under_zip hnames hlen]
      exact (List.map_injective_iff.mpr toList_injective).eq_iff.symm
    · simp [hlen]
  | _ => simp [Value.fields?, Value.entries?]

/-- What a reader makes of the values under a name: nothing of none, and of one what it reads. -/
def Reads {β : Type} (read : Value → Option β) (values : List Value) (o : Option β) : Prop :=
  List.Forall₂ (fun v b => read v = some b) values o.toList

theorem Reads.exists_field {β : Type} {read : Value → Option β} {values : List Value}
    {o : Option β} (h : Reads read values o) : ∃ field : Option Value, values = field.toList := by
  unfold Reads at h
  cases o with
  | none => exact ⟨none, List.forall₂_nil_right_iff.mp h⟩
  | some b =>
    obtain ⟨v, rest, -, hrest, rfl⟩ := List.forall₂_cons_right_iff.mp h
    exact ⟨some v, congrArg (v :: ·) (List.forall₂_nil_right_iff.mp hrest)⟩

/-- The order of the entries has no say. -/
theorem Reads.perm {β : Type} {read : Value → Option β} {o : Option β} {name : String}
    {entries entries' : List (String × Value)} (hperm : entries.Perm entries')
    (h : Reads read (under name entries) o) : Reads read (under name entries') o := by
  have hunder : (under name entries).Perm (under name entries') := (hperm.filter _).map _
  obtain ⟨field, hfield⟩ := h.exists_field
  rw [hfield] at h hunder
  cases field with
  | none => exact (List.nil_perm.mp hunder).symm ▸ h
  | some v => exact List.singleton_perm.mp hunder ▸ h

theorem withDefault_eq_some_iff {β : Type} {default b : β} {read : Value → Option β}
    {field : Option Value} : withDefault default read field = some b ↔
      ∃ o, Reads read field.toList o ∧ o.getD default = b := by
  unfold withDefault Reads
  cases field with
  | none =>
    constructor
    · rintro ⟨⟩
      exact ⟨none, .nil, rfl⟩
    · rintro ⟨_ | b', h, rfl⟩
      · rfl
      · cases h
  | some v =>
    constructor
    · intro h
      exact ⟨some b, .cons h .nil, rfl⟩
    · rintro ⟨_ | b', h, rfl⟩
      · cases h
      · exact (List.forall₂_cons.mp h).1

end Entries

end CurveFit.Json

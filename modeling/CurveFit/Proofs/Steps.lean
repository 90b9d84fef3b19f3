import CurveFit.Error

/-!
# Checked steps

When a step or a sequence of steps succeeds, and when it fails.  Two steps `Agree` when they fail in
the same way or both succeed with related results; sequences of agreeing steps agree.
-/

namespace CurveFit

variable {ε ε' β γ : Type}

theorem bind_eq_ok_iff {x : Except ε β} {f : β → Except ε γ} {c : γ} :
    (x >>= f) = .ok c ↔ ∃ b, x = .ok b ∧ f b = .ok c := by
  cases x with
  | error e =>
    constructor
    · intro h
      cases h
    · rintro ⟨b, hb, _⟩
      cases hb
  | ok b =>
    constructor
    · intro h
      exact ⟨b, rfl, h⟩
    · rintro ⟨b', hb, h⟩
      cases hb
      exact h

theorem bind_eq_error_iff {x : Except ε β} {f : β → Except ε γ} {e : ε} :
    (x >>= f) = .error e ↔ x = .error e ∨ ∃ b, x = .ok b ∧ f b = .error e := by
  cases x with
  | error e' =>
    constructor
    · intro h
      exact .inl (congrArg _ (Except.error.inj h))
    · rintro (h | ⟨b, hb, _⟩)
      · exact congrArg _ (Except.error.inj h)
      · cases hb
  | ok b =>
    constructor
    · intro h
      exact .inr ⟨b, rfl, h⟩
    · rintro (h | ⟨b', hb, h⟩)
      · cases h
      · cases hb
        exact h

theorem map_eq_ok_iff {x : Except ε β} {f : β → γ} {c : γ} :
    x.map f = .ok c ↔ ∃ b, x = .ok b ∧ f b = c := by
  cases x <;> simp [Except.map]

theorem map_bind {x : Except ε β} {k : β → γ} {δ : Type} {f : γ → Except ε δ} :
    (x.map k >>= f) = x >>= fun b => f (k b) := by
  cases x <;> rfl

theorem map_map {x : Except ε β} {k : β → γ} {δ : Type} {f : γ → δ} :
    (x.map k).map f = x.map fun b => f (k b) := by
  cases x <;> rfl

/-- Steps that go on alike have results that are related by one function. -/
theorem bind_eq_map {δ : Type} {x : Except ε β} {f : β → Except ε δ} {g : β → Except ε γ} {k : γ → δ}
    (h : ∀ b, x = .ok b → f b = (g b).map k) : (x >>= f) = (x >>= g).map k := by
  cases x with
  | error e => rfl
  | ok b => exact h b rfl

theorem mapError_map {x : Except ε β} {f : ε → ε'} {k : β → γ} :
    (x.map k).mapError f = (x.mapError f).map k := by
  cases x <;> rfl

theorem mapError_eq_ok_iff {x : Except ε β} {f : ε → ε'} {b : β} :
    x.mapError f = .ok b ↔ x = .ok b := by
  cases x with
  | error e => exact ⟨nofun, nofun⟩
  | ok b' =>
    constructor <;>
    · intro h
      cases h
      rfl

theorem mapError_eq_error_iff {x : Except ε β} {f : ε → ε'} {e' : ε'} :
    x.mapError f = .error e' ↔ ∃ e, x = .error e ∧ f e = e' := by
  cases x with
  | error e =>
    constructor
    · intro h
      exact ⟨e, rfl, Except.error.inj h⟩
    · rintro ⟨e₁, he, hf⟩
      cases he
      exact congrArg Except.error hf
  | ok b =>
    constructor
    · intro h
      cases h
    · rintro ⟨e, he, -⟩
      cases he

theorem exists_of_isOk {x : Except ε β} (h : x.isOk) : ∃ b, x = .ok b := by
  cases x with
  | error e => cases h
  | ok b => exact ⟨b, rfl⟩

theorem exists_of_any {x : Except ε β} {p : β → Bool} (h : x.toOption.any p) :
    ∃ b, x = .ok b ∧ p b := by
  cases x with
  | error e => cases h
  | ok b => exact ⟨b, rfl, h⟩

/-! ## Agreement -/

/-- Two steps fail in the same way, or both succeed and their results are related. -/
inductive Agree (R : β → γ → Prop) : Except ε β → Except ε γ → Prop
  | error (e : ε) : Agree R (.error e) (.error e)
  | ok {b : β} {c : γ} (h : R b c) : Agree R (.ok b) (.ok c)

namespace Agree

variable {β' γ' : Type} {R : β → γ → Prop} {S : β' → γ' → Prop} {x : Except ε β} {y : Except ε γ}

theorem ok_left {b : β} (h : Agree R (.ok b) y) : ∃ c, y = .ok c ∧ R b c := by
  cases h with
  | ok h => exact ⟨_, rfl, h⟩

theorem error_left {e : ε} (h : Agree R (.error e) y) : y = .error e := by
  cases h with
  | error e => rfl

theorem mono {R' : β → γ → Prop} (h : Agree R x y) (hR : ∀ b c, R b c → R' b c) :
    Agree R' x y := by
  cases h with
  | error e => exact .error e
  | ok h => exact .ok (hR _ _ h)

theorem bind {f : β → Except ε β'} {g : γ → Except ε γ'} (h : Agree R x y)
    (hfg : ∀ b c, R b c → Agree S (f b) (g c)) : Agree S (x >>= f) (y >>= g) := by
  cases h with
  | error e => exact .error e
  | ok h => exact hfg _ _ h

theorem map {f : β → β'} {g : γ → γ'} (h : Agree R x y) (hfg : ∀ b c, R b c → S (f b) (g c)) :
    Agree S (x.map f) (y.map g) := by
  cases h with
  | error e => exact .error e
  | ok h => exact .ok (hfg _ _ h)

theorem bind_map {f : β → Except ε β'} {g : γ → γ'} (h : Agree R x y)
    (hfg : ∀ b c, R b c → Agree S (f b) (.ok (g c))) : Agree S (x >>= f) (y.map g) := by
  cases h with
  | error e => exact .error e
  | ok h => exact hfg _ _ h

/-- What the results are may be kept along with their relation. -/
theorem remember (h : Agree R x y) : Agree (fun b c => R b c ∧ x = .ok b ∧ y = .ok c) x y := by
  cases h with
  | error e => exact .error e
  | ok h => exact .ok ⟨h, rfl, rfl⟩

theorem mapError (h : Agree R x y) (f : ε → ε') : Agree R (x.mapError f) (y.mapError f) := by
  cases h with
  | error e => exact .error (f e)
  | ok h => exact .ok h

theorem eq {x y : Except ε β} (h : Agree (· = ·) x y) : x = y := by
  cases h with
  | error e => rfl
  | ok h => exact congrArg Except.ok h

theorem refl (x : Except ε β) : Agree (· = ·) x x := by
  cases x with
  | error e => exact .error e
  | ok b => exact .ok rfl

theorem eq_map {g : β → γ} (h : Agree R x y) (hg : ∀ b c, R b c → c = g b) : y = x.map g := by
  cases h with
  | error e => rfl
  | ok h => exact congrArg Except.ok (hg _ _ h)

theorem of_map_eq {f : β → β'} {g : γ → β'} (h : x.map f = y.map g) :
    Agree (fun b c => f b = g c) x y := by
  cases x with
  | error e =>
    cases y with
    | error e' => exact Except.error.inj h ▸ .error e
    | ok c => cases h
  | ok b =>
    cases y with
    | error e => cases h
    | ok c => exact .ok (Except.ok.inj h)

theorem map_eq {f : β → β'} {g : γ → β'} (h : Agree R x y) (hfg : ∀ b c, R b c → f b = g c) :
    x.map f = y.map g := by
  cases h with
  | error e => rfl
  | ok h => exact congrArg Except.ok (hfg _ _ h)

end Agree

end CurveFit

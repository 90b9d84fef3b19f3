import CurveFit.Lanes.Bank
import CurveFit.Proofs.Binary64.Value
import CurveFit.Proofs.Lanes.Elementwise
import CurveFit.Proofs.Lanes.Sums

/-!
# Programs over padded vectors

A step computes the lanes of its target from the logical lanes of the vectors it reads, as
`BankStep.lanes` says, and leaves every other vector alone (`BankStep.run_eq`).  What it writes is
padded with zeros and no longer than the capacity, so a bank of such vectors stays one
(`Bank.Padded.run`), through any program (`Bank.Padded.runAll`); and reductions, which run over the
padding, are exact sums of the logical lanes.
-/

namespace CurveFit

open LaneVector

variable {α : Type}

/-! ## Padded vectors -/

section Padded

variable [OfNat α 0] {v : LaneVector α} {capacity : ℕ}

/-- A vector with no more lanes than the capacity, in whole registers, and zeros after its lanes. -/
structure LaneVector.Padded (v : LaneVector α) (capacity : ℕ) : Prop where
  length_le : v.length ≤ capacity
  storage_length : v.storage.length = paddedLength v.length
  padding : ∀ x ∈ v.storage.drop v.length, x = 0

theorem LaneVector.padded_ofLanes {xs : List α} (h : xs.length ≤ capacity) :
    (ofLanes xs).Padded capacity where
  length_le := h
  storage_length := length_storage_ofLanes xs
  padding x hx := by
    unfold ofLanes at hx
    rw [List.drop_left] at hx
    exact List.eq_of_mem_replicate hx

theorem LaneVector.Padded.eq_ofLanes (hv : v.Padded capacity) : v = ofLanes v.lanes :=
  LaneVector.eq_ofLanes hv.storage_length hv.padding

theorem LaneVector.Padded.length_lanes_le (hv : v.Padded capacity) : v.lanes.length ≤ capacity := by
  unfold lanes
  exact (List.length_take_le _ _).trans hv.length_le

end Padded

/-! ## Banks -/

namespace Bank

/-- The logical lanes of a named vector. -/
def lanes (bank : Bank α) (name : String) : Except Failure (List α) :=
  (bank.get? name).map LaneVector.lanes

/-- Every vector of a bank is padded. -/
def Padded [OfNat α 0] (bank : Bank α) (capacity : ℕ) : Prop :=
  ∀ entry ∈ bank, entry.2.Padded capacity

variable {bank : Bank α} {name other : String} {v : LaneVector α}

theorem get?_put_self : (bank.put name v).get? name = .ok v := by
  unfold get? put
  rw [List.lookup_cons_self]

theorem lookup_filter_ne {bank : Bank α} (h : other ≠ name) :
    (bank.filter (·.1 != name)).lookup other = bank.lookup other := by
  induction bank with
  | nil => rfl
  | cons entry bank ih =>
    by_cases hname : entry.1 = name
    · rw [List.filter_cons_of_neg (by simp [hname]), ih, List.lookup_cons,
        beq_eq_false_iff_ne.mpr (hname ▸ h)]
    · rw [List.filter_cons_of_pos (by simp [hname]), List.lookup_cons, List.lookup_cons, ih]

theorem get?_put_of_ne (h : other ≠ name) : (bank.put name v).get? other = bank.get? other := by
  unfold get? put
  rw [List.lookup_cons, beq_eq_false_iff_ne.mpr h, lookup_filter_ne h]

theorem mem_of_get? (h : bank.get? name = .ok v) : (name, v) ∈ bank := by
  unfold get? at h
  cases hlookup : bank.lookup name with
  | none =>
    rw [hlookup] at h
    cases h
  | some w =>
    rw [hlookup] at h
    cases h
    obtain ⟨front, back, hbank, -⟩ := List.lookup_eq_some_iff.mp hlookup
    rw [hbank]
    simp

section Padded

variable [OfNat α 0] {capacity : ℕ}

theorem Padded.get? (hbank : bank.Padded capacity) (h : bank.get? name = .ok v) :
    v.Padded capacity :=
  hbank _ (mem_of_get? h)

/-- A padded vector is known by its logical lanes. -/
theorem Padded.get?_eq (hbank : bank.Padded capacity) (name : String) :
    bank.get? name = (bank.lanes name).map ofLanes := by
  unfold lanes
  cases h : bank.get? name with
  | error e => rfl
  | ok v => exact congrArg Except.ok (hbank.get? h).eq_ofLanes

theorem Padded.put (hbank : bank.Padded capacity) (hv : v.Padded capacity) :
    (bank.put name v).Padded capacity := by
  intro entry hentry
  rcases List.mem_cons.mp hentry with rfl | hentry
  · exact hv
  · exact hbank entry (List.mem_of_mem_filter hentry)

end Padded

end Bank

/-! ## Steps -/

section Steps

variable [OfNat α 0] [Add α] [Sub α] [Mul α] [Div α] [LaneExp α] [LawfulLaneExp α]

/-- The lanes that a step leaves in its target, from the logical lanes of the vectors it reads. -/
def BankStep.lanes (u : VectorUnit) (read : String → Except Failure (List α)) :
    BankStep α → Except Failure (List α)
  | .ofList _ values => orRefused do
    u.checkCapacity values.length
    pure values
  | .filled _ n value => orRefused do
    u.checkCapacity n
    pure (List.replicate n value)
  | .zeros _ n => orRefused do
    u.checkCapacity n
    pure (List.replicate n 0)
  | .clone a _ => read a
  | .set dst i value => do
    let xs ← read dst
    orFaulted (if i < xs.length then .ok (xs.set i value) else .error .outOfRange)
  | .apply op a b dst => do
    let xs ← read a
    let ys ← read b
    let ds ← read dst
    orFaulted do
      checkLengths "apply" xs.length ys.length
      checkLengths "apply" xs.length ds.length
      pure (List.zipWith op.apply xs ys)
  | .applyScalar op a s dst => do
    let xs ← read a
    let ds ← read dst
    orFaulted do
      checkLengths "apply_scalar" xs.length ds.length
      pure (xs.map fun x => op.apply x s)
  | .scalarApply op s a dst => do
    let xs ← read a
    let ds ← read dst
    orFaulted do
      checkLengths "scalar_apply" xs.length ds.length
      pure (xs.map fun x => op.apply s x)
  | .exp a dst => do
    let xs ← read a
    let ds ← read dst
    orFaulted do
      checkLengths "exp" xs.length ds.length
      pure (xs.map (LawfulLaneExp.lane u.kernel))
  | .newBinary op a b _ => do
    let xs ← read a
    let ys ← read b
    orFaulted do
      checkLengths "apply" xs.length ys.length
      pure (List.zipWith op.apply xs ys)
  | .newWithScalar op a s _ => do
    let xs ← read a
    pure (xs.map fun x => op.apply x s)
  | .newScalarWith op s a _ => do
    let xs ← read a
    pure (xs.map fun x => op.apply s x)

variable {u : VectorUnit} {bank bank' : Bank α} {step : BankStep α} {xs : List α}

omit [Add α] [Sub α] [Mul α] [Div α] [LaneExp α] [LawfulLaneExp α] in
/-- A vector that is read hands over its logical lanes. -/
theorem Bank.Padded.read {capacity : ℕ} (hbank : bank.Padded capacity) {name : String}
    {f : LaneVector α → Except Failure (LaneVector α)} {g : List α → Except Failure (List α)}
    (h : ∀ xs, f (ofLanes xs) = (g xs).map ofLanes) :
    (bank.get? name >>= f) = (bank.lanes name >>= g).map ofLanes := by
  rw [hbank.get?_eq name, map_bind]
  exact bind_eq_map fun xs _ => h xs

/-- **A step** writes the vector of the lanes that it computes, and fails where they say so. -/
theorem BankStep.value_eq (hbank : bank.Padded u.capacity) (step : BankStep α) :
    step.value u bank = (step.lanes u bank.lanes).map ofLanes := by
  cases step with
  | ofList dst values =>
    show orRefused _ = (orRefused _).map ofLanes
    rw [VectorUnit.ofList_eq]
    exact mapError_map
  | filled dst n value =>
    show orRefused _ = (orRefused _).map ofLanes
    rw [VectorUnit.filled_eq]
    exact mapError_map
  | zeros dst n =>
    show orRefused (u.filled n 0) = (orRefused _).map ofLanes
    rw [VectorUnit.filled_eq]
    exact mapError_map
  | clone a dst => exact hbank.get?_eq a
  | set dst i value =>
    refine hbank.read fun xs => ?_
    rw [LaneVector.set?_eq]
    exact mapError_map
  | apply op a b dst =>
    refine hbank.read fun xs => hbank.read fun ys => hbank.read fun ds => ?_
    rw [Kernel.apply_eq]
    exact mapError_map
  | applyScalar op a s dst =>
    refine hbank.read fun xs => hbank.read fun ds => ?_
    rw [Kernel.applyScalar_eq]
    exact mapError_map
  | scalarApply op s a dst =>
    refine hbank.read fun xs => hbank.read fun ds => ?_
    rw [Kernel.scalarApply_eq]
    exact mapError_map
  | exp a dst =>
    refine hbank.read fun xs => hbank.read fun ds => ?_
    rw [Kernel.exp_eq]
    exact mapError_map
  | newBinary op a b dst =>
    refine hbank.read fun xs => hbank.read fun ys => ?_
    rw [length_ofLanes, zeroed_eq_ofLanes, Kernel.apply_eq, List.length_replicate, checkLengths_self]
    exact mapError_map
  | newWithScalar op a s dst =>
    refine hbank.read fun xs => ?_
    rw [length_ofLanes, zeroed_eq_ofLanes, Kernel.applyScalar_eq, List.length_replicate,
      checkLengths_self]
    rfl
  | newScalarWith op s a dst =>
    refine hbank.read fun xs => ?_
    rw [length_ofLanes, zeroed_eq_ofLanes, Kernel.scalarApply_eq, List.length_replicate,
      checkLengths_self]
    rfl

theorem BankStep.run_eq (hbank : bank.Padded u.capacity) (step : BankStep α) :
    step.run u bank = (step.lanes u bank.lanes).map fun xs => bank.put step.target (ofLanes xs) := by
  show (step.value u bank >>= _) = _
  rw [BankStep.value_eq hbank, map_bind]
  cases step.lanes u bank.lanes <;> rfl

omit [OfNat α 0] [Add α] [Sub α] [Mul α] [Div α] [LaneExp α] [LawfulLaneExp α] in
theorem Bank.Padded.length_lanes_le [OfNat α 0] {capacity : ℕ} (hbank : bank.Padded capacity)
    {name : String} (h : bank.lanes name = .ok xs) : xs.length ≤ capacity := by
  obtain ⟨v, hv, rfl⟩ := map_eq_ok_iff.mp h
  exact (hbank.get? hv).length_lanes_le

/-- A result has no more lanes than `n`. -/
def Bounded {ε : Type} (n : ℕ) (r : Except ε (List α)) : Prop := ∀ xs, r = .ok xs → xs.length ≤ n

section Bounded

omit [OfNat α 0] [Add α] [Sub α] [Mul α] [Div α] [LaneExp α] [LawfulLaneExp α]

variable {ε ε' β : Type} {n : ℕ}

theorem Bounded.pure (h : xs.length ≤ n) : Bounded n (.ok xs : Except ε (List α)) := by
  intro ys hys
  cases hys
  exact h

theorem Bounded.map (f : α → α) (h : xs.length ≤ n) : Bounded n (.ok (xs.map f) : Except ε _) :=
  .pure ((List.length_map f).trans_le h)

theorem Bounded.zipWith (f : α → α → α) (ys : List α) (h : xs.length ≤ n) :
    Bounded n (.ok (List.zipWith f xs ys) : Except ε _) := by
  refine .pure ?_
  rw [List.length_zipWith]
  exact (Nat.min_le_left _ _).trans h

theorem Bounded.bind {x : Except ε β} {f : β → Except ε (List α)}
    (h : ∀ b, x = .ok b → Bounded n (f b)) : Bounded n (x >>= f) := by
  intro xs hxs
  obtain ⟨b, hb, hxs⟩ := bind_eq_ok_iff.mp hxs
  exact h b hb xs hxs

theorem Bounded.mapError {r : Except ε (List α)} {f : ε → ε'} (h : Bounded n r) :
    Bounded n (r.mapError f) :=
  fun xs hxs => h xs (mapError_eq_ok_iff.mp hxs)

end Bounded

/-- No step makes a vector longer than the capacity. -/
theorem BankStep.lanes_bounded (hbank : bank.Padded u.capacity) (step : BankStep α) :
    Bounded u.capacity (step.lanes u bank.lanes) := by
  cases step with
  | ofList dst values =>
    refine .mapError <| .bind fun _ hcheck => .pure ?_
    exact VectorUnit.checkCapacity_eq_ok_iff.mp hcheck
  | filled dst n value =>
    refine .mapError <| .bind fun _ hcheck => .pure ?_
    rw [List.length_replicate]
    exact VectorUnit.checkCapacity_eq_ok_iff.mp hcheck
  | zeros dst n =>
    refine .mapError <| .bind fun _ hcheck => .pure ?_
    rw [List.length_replicate]
    exact VectorUnit.checkCapacity_eq_ok_iff.mp hcheck
  | clone a dst => exact fun xs hxs => hbank.length_lanes_le hxs
  | set dst i value =>
    refine .bind fun xs hxs => .mapError ?_
    split
    · refine .pure ?_
      rw [List.length_set]
      exact hbank.length_lanes_le hxs
    · intro ys hys
      cases hys
  | apply op a b dst =>
    exact .bind fun xs hxs => .bind fun ys _ => .bind fun ds _ => .mapError <| .bind fun _ _ =>
      .bind fun _ _ => .zipWith _ ys (hbank.length_lanes_le hxs)
  | applyScalar op a s dst =>
    exact .bind fun xs hxs => .bind fun ds _ => .mapError <| .bind fun _ _ =>
      .map _ (hbank.length_lanes_le hxs)
  | scalarApply op s a dst =>
    exact .bind fun xs hxs => .bind fun ds _ => .mapError <| .bind fun _ _ =>
      .map _ (hbank.length_lanes_le hxs)
  | exp a dst =>
    exact .bind fun xs hxs => .bind fun ds _ => .mapError <| .bind fun _ _ =>
      .map _ (hbank.length_lanes_le hxs)
  | newBinary op a b dst =>
    exact .bind fun xs hxs => .bind fun ys _ => .mapError <| .bind fun _ _ =>
      .zipWith _ ys (hbank.length_lanes_le hxs)
  | newWithScalar op a s dst => exact .bind fun xs hxs => .map _ (hbank.length_lanes_le hxs)
  | newScalarWith op s a dst => exact .bind fun xs hxs => .map _ (hbank.length_lanes_le hxs)

/-! ## Programs -/

theorem Bank.Padded.run (hbank : bank.Padded u.capacity) (h : step.run u bank = .ok bank') :
    bank'.Padded u.capacity := by
  rw [BankStep.run_eq hbank] at h
  obtain ⟨xs, hxs, rfl⟩ := map_eq_ok_iff.mp h
  exact hbank.put (padded_ofLanes (step.lanes_bounded hbank xs hxs))

/-- **Programs** keep every vector padded. -/
theorem Bank.Padded.runAll (hbank : bank.Padded u.capacity) (program : List (BankStep α)) :
    (bank.runAll u program).Padded u.capacity := by
  induction program generalizing bank with
  | nil => exact hbank
  | cons step program ih =>
    show Bank.Padded (Bank.runAll u ((step.run u bank).toOption.getD bank) program) _
    cases hrun : step.run u bank with
    | error e => exact ih hbank
    | ok bank' => exact ih (hbank.run hrun)

/-- What a step does to a bank, by the logical lanes of its vectors alone: the target gets the lanes
that the step computes, and no other vector changes; a step that computes none changes nothing. -/
structure BankStep.Acts (u : VectorUnit) (bank : Bank α) (step : BankStep α) : Prop where
  writes : ∀ xs, step.lanes u bank.lanes = .ok xs → ∃ bank', step.run u bank = .ok bank' ∧
    bank.runAll u [step] = bank' ∧ bank'.get? step.target = .ok (ofLanes xs) ∧
      ∀ name ≠ step.target, bank'.get? name = bank.get? name
  fails : ∀ e, step.lanes u bank.lanes = .error e →
    step.run u bank = .error e ∧ bank.runAll u [step] = bank

theorem BankStep.acts (hbank : bank.Padded u.capacity) (step : BankStep α) : step.Acts u bank := by
  have hrun := step.run_eq hbank
  constructor
  · intro xs hxs
    rw [hxs] at hrun
    refine ⟨_, hrun, ?_, Bank.get?_put_self, fun name hname => Bank.get?_put_of_ne hname⟩
    show (step.run u bank).toOption.getD bank = _
    rw [hrun]
    rfl
  · intro e he
    rw [he] at hrun
    refine ⟨hrun, ?_⟩
    show (step.run u bank).toOption.getD bank = _
    rw [hrun]
    rfl

end Steps

/-! ## Reductions -/

section Reductions

variable {K : Type} [Field K] {u : VectorUnit} {bank : Bank K}

/-- Reductions over a bank are exact sums of the logical lanes. -/
structure Bank.Sums (u : VectorUnit) (bank : Bank K) : Prop where
  total : ∀ name v, bank.get? name = .ok v → u.kernel.total v = v.lanes.sum
  innerProduct : ∀ name name' v w, bank.get? name = .ok v → bank.get? name' = .ok w →
    u.kernel.innerProduct v w =
      if v.length = w.length then .ok (List.zipWith (· * ·) v.lanes w.lanes).sum
      else .error (.lengthMismatch v.length w.length)

/-- **Zero padding** adds nothing to a sum. -/
theorem Bank.Padded.sums (hbank : bank.Padded u.capacity) : bank.Sums u where
  total name v hv := by
    rw [(hbank.get? hv).eq_ofLanes, lanes_ofLanes, Kernel.total_ofLanes]
  innerProduct name name' v w hv hw := by
    rw [(hbank.get? hv).eq_ofLanes, (hbank.get? hw).eq_ofLanes, Kernel.innerProduct_ofLanes]
    simp only [lanes_ofLanes, length_ofLanes]

/-- The numbers that binary64 lanes stand for. -/
def LaneVector.values (v : LaneVector Float) : LaneVector ℚ :=
  ⟨v.storage.map Binary64.value, v.length⟩

theorem LaneVector.lanes_values (v : LaneVector Float) :
    v.values.lanes = v.lanes.map Binary64.value :=
  (List.map_take ..).symm

theorem LaneVector.Padded.values {v : LaneVector Float} {capacity : ℕ} (hv : v.Padded capacity) :
    v.values.Padded capacity where
  length_le := hv.length_le
  storage_length := (List.length_map _).trans hv.storage_length
  padding x hx := by
    have hzero : Binary64.value 0 = 0 := by decide +kernel
    unfold LaneVector.values at hx
    rw [← List.map_drop] at hx
    obtain ⟨y, hy, rfl⟩ := List.mem_map.mp hx
    rw [hv.padding y hy, hzero]

/-- A bank of the numbers that the lanes stand for. -/
def Bank.values (bank : Bank Float) : Bank ℚ := bank.map fun (name, v) => (name, v.values)

theorem Bank.get?_values (bank : Bank Float) (name : String) :
    bank.values.get? name = (bank.get? name).map LaneVector.values := by
  have hlookup : bank.values.lookup name = (bank.lookup name).map LaneVector.values := by
    induction bank with
    | nil => rfl
    | cons entry bank ih =>
      show (((entry.1, entry.2.values) :: Bank.values bank) : Bank ℚ).lookup name = _
      rw [List.lookup_cons, List.lookup_cons]
      cases name == entry.1 with
      | true => rfl
      | false => exact ih
  unfold get?
  rw [hlookup]
  cases bank.lookup name <;> rfl

theorem Bank.Padded.values {bank : Bank Float} {capacity : ℕ} (hbank : bank.Padded capacity) :
    bank.values.Padded capacity := by
  intro entry hentry
  obtain ⟨entry, hmem, rfl⟩ := List.mem_map.mp hentry
  exact (hbank entry hmem).values

end Reductions

/-- **Programs over padded vectors.**  After any program, each vector is no longer than the capacity,
is stored in whole registers, and is zero after its lanes.  Any further step leaves in its target what
it computes from the logical lanes it reads, whatever the target held, and nothing else changes; a
step that fails changes nothing.  Reductions over the storage of the lanes' numbers are exact sums of
the logical lanes, and so they are for programs in exact arithmetic. -/
theorem Bank.runAll_padded :
    (∀ (u : VectorUnit) (program : List (BankStep Float)),
      let bank := Bank.runAll u [] program
      bank.Padded u.capacity ∧ (∀ step : BankStep Float, step.Acts u bank) ∧ bank.values.Sums u) ∧
    ∀ (K : Type) [Field K] [LaneExp K] [LawfulLaneExp K] (u : VectorUnit)
      (program : List (BankStep K)),
      let bank := Bank.runAll u [] program
      bank.Padded u.capacity ∧ (∀ step : BankStep K, step.Acts u bank) ∧ bank.Sums u := by
  constructor
  · intro u program bank
    have hbank : bank.Padded u.capacity := Padded.runAll (List.forall_mem_nil _) program
    exact ⟨hbank, fun step => step.acts hbank, hbank.values.sums⟩
  · intro K _ _ _ u program bank
    have hbank : bank.Padded u.capacity := Padded.runAll (List.forall_mem_nil _) program
    exact ⟨hbank, fun step => step.acts hbank, hbank.sums⟩

/-- Five lanes in two registers: three is added in all eight, and the padding is cleared again. -/
theorem Bank.runAll_padded_five_lanes :
    let u : VectorUnit := ⟨.avx2, 8⟩
    let program : List (BankStep Float) := [.filled "a" 5 2.0, .zeros "b" 5, .zeros "c" 3,
      .apply .div "a" "b" "b", .scalarApply .add 3.0 "a" "b", .zeros "d" 9]
    let bank := Bank.runAll u [] program
    ∃ v, bank.get? "b" = .ok v ∧ v.lanes = [5.0, 5.0, 5.0, 5.0, 5.0] ∧ v.Padded 8 ∧
      u.kernel.total v.values = 25 ∧ bank.runAll u [.apply .mul "a" "c" "b"] = bank := by
  intro u program bank
  obtain ⟨hpadded, hacts, hsums⟩ := Bank.runAll_padded.1 u program
  obtain ⟨v, hv, hlanes⟩ : ∃ v, bank.get? "b" = .ok v ∧
      decide (v.lanes = [5.0, 5.0, 5.0, 5.0, 5.0]) = true := exists_of_any (by decide +kernel)
  have hlanes := of_decide_eq_true hlanes
  have hvalues : bank.values.get? "b" = .ok v.values := by
    rw [Bank.get?_values, hv]
    rfl
  refine ⟨v, hv, hlanes, hpadded.get? hv, ?_, ?_⟩
  · rw [hsums.total "b" _ hvalues, LaneVector.lanes_values, hlanes]
    decide +kernel
  · refine ((hacts (.apply .mul "a" "c" "b")).fails (.faulted (.lengths "apply" 5 3)) ?_).2
    decide +kernel

end CurveFit

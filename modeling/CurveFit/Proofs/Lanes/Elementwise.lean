import CurveFit.Exponential.Lanes
import CurveFit.Proofs.Lanes.Padded
import CurveFit.Proofs.Steps
import Mathlib.Analysis.Complex.Exponential

/-!
# Elementwise passes over padded vectors

A pass over one list is a map, however it is grouped (`mapGroups_eq_map`), so an operation on padded
vectors maps their logical lanes, whatever its destination held (`Kernel.applyScalar_eq`,
`Kernel.scalarApply_eq`, `Kernel.exp_eq`; for two operands `Kernel.apply_eq`).  What it makes of the
padding, such as `0 / 0`, is cleared.

The exponential of a kernel is a map over whole registers only: the AVX2 kernel has another
exponential for the lanes after the last whole group, and padded storage has no such lanes.
`LawfulLaneExp` asks for this much.
-/

namespace CurveFit

variable {α : Type}

/-! ## Passes over one list -/

/-- Groups of four and a tail that maps what is left make one map. -/
theorem mapGroups_eq_map (f : α → α) {tail : List α → List α → List α} {a out : List α}
    {done : Array α} (hlen : a.length = out.length)
    (htail : ∀ rest out', rest.length = a.length % 4 → rest.length = out'.length →
      tail rest out' = rest.map f) :
    mapGroups (fun x0 x1 x2 x3 => [f x0, f x1, f x2, f x3]) tail a out done =
      done.toList ++ a.map f := by
  induction a, out, done using mapGroups.induct fun x0 x1 x2 x3 => [f x0, f x1, f x2, f x3] with
  | case1 x0 x1 x2 x3 a o0 o1 o2 o3 out done ih =>
    have hlen' : a.length = out.length := by simpa using hlen
    have hrest : (x0 :: x1 :: x2 :: x3 :: a).length % 4 = a.length % 4 := by
      simp only [List.length_cons]
      omega
    rw [mapGroups, ih hlen' (hrest ▸ htail)]
    simp
  | case2 a out done hshort =>
    have hsmall : a.length < 4 := by
      by_contra hlarge
      obtain ⟨x0, x1, x2, x3, a, rfl⟩ : ∃ x0 x1 x2 x3 a', a = x0 :: x1 :: x2 :: x3 :: a' := by
        rcases a with _ | ⟨x0, _ | ⟨x1, _ | ⟨x2, _ | ⟨x3, a⟩⟩⟩⟩ <;> simp at hlarge ⊢
      rcases out with _ | ⟨o0, _ | ⟨o1, _ | ⟨o2, _ | ⟨o3, out⟩⟩⟩⟩ <;> simp at hlen
      exact hshort _ _ _ _ _ _ _ _ _ _ rfl rfl
    rw [mapGroups, htail a out (Nat.mod_eq_of_lt hsmall).symm hlen]
    exact hshort

theorem mapLanes_eq_map (f : α → α) {a out : List α} (h : a.length = out.length) :
    mapLanes f a out = a.map f :=
  overwrite_of_length_eq ((List.length_map f).trans h)

section Arithmetic

variable [Add α] [Sub α] [Mul α] [Div α] {a out : List α}

theorem Kernel.withScalar_eq_map (k : Kernel) (op : Operator) (s : α) (h : a.length = out.length) :
    k.withScalar op a s out = a.map fun x => op.apply x s := by
  cases k with
  | portable => exact mapLanes_eq_map _ h
  | avx2 => exact mapGroups_eq_map _ h fun _ _ _ h' => mapLanes_eq_map _ h'

theorem Kernel.scalarWith_eq_map (k : Kernel) (op : Operator) (s : α) (h : a.length = out.length) :
    k.scalarWith op s a out = a.map fun x => op.apply s x := by
  cases k with
  | portable => exact mapLanes_eq_map _ h
  | avx2 => exact mapGroups_eq_map _ h fun _ _ _ h' => mapLanes_eq_map _ h'

end Arithmetic

/-- Numbers whose kernels compute the exponential lane by lane over whole registers. -/
class LawfulLaneExp (α : Type) [LaneExp α] where
  /-- The exponential of one lane. -/
  lane : Kernel → α → α
  run_eq : ∀ (k : Kernel) {a out : List α}, a.length = out.length → a.length % 4 = 0 →
    LaneExp.run k a out = a.map (lane k)

instance : LawfulLaneExp Float where
  lane
    | .portable => Float.exp
    | .avx2 => Exponential.lane
  run_eq k a out hlen hwhole := by
    cases k with
    | portable => exact mapLanes_eq_map _ hlen
    | avx2 =>
      refine mapGroups_eq_map _ hlen fun rest out' hrest hout => ?_
      -- nothing is left for the other exponential
      rw [hwhole] at hrest
      obtain rfl := List.length_eq_zero_iff.mp hrest
      obtain rfl := List.length_eq_zero_iff.mp hout.symm
      rfl

/-- The exponential of the real numbers, lane by lane in either kernel. -/
noncomputable instance : LaneExp ℝ where
  run _ := mapLanes Real.exp

noncomputable instance : LawfulLaneExp ℝ where
  lane _ := Real.exp
  run_eq _ _ _ hlen _ := mapLanes_eq_map _ hlen

/-! ## Operations on padded vectors -/

theorem paddedLength_mod (n : ℕ) : paddedLength n % 4 = 0 := by
  unfold paddedLength laneCount
  omega

variable [OfNat α 0]

namespace LaneVector

theorem length_storage_congr {xs ys : List α} (h : xs.length = ys.length) :
    (ofLanes xs).storage.length = (ofLanes ys).storage.length := by
  rw [length_storage_ofLanes, length_storage_ofLanes, h]

/-- A map over the storage, after the padding has been cleared. -/
theorem clearPadding_map (f : α → α) (xs : List α) :
    (LaneVector.mk ((ofLanes xs).storage.map f) xs.length).clearPadding = ofLanes (xs.map f) := by
  have hlen : (xs.map f).length = xs.length := List.length_map f
  rw [← hlen]
  apply clearPadding_eq_ofLanes
  · simp
  · unfold ofLanes
    rw [List.map_append, List.take_left]

/-- A vector is one of padded lanes when it has whole registers and zeros after its lanes. -/
theorem eq_ofLanes {v : LaneVector α} (hlen : v.storage.length = paddedLength v.length)
    (hzero : ∀ x ∈ v.storage.drop v.length, x = 0) : v = ofLanes v.lanes := by
  have hlanes : v.lanes.length = v.length := by
    unfold lanes
    rw [List.length_take, hlen]
    exact Nat.min_eq_left (le_paddedLength _)
  have hpadding : v.storage.drop v.length = List.replicate (paddingLength v.length) 0 := by
    rw [List.eq_replicate_iff]
    refine ⟨?_, hzero⟩
    rw [List.length_drop, hlen]
    rfl
  obtain ⟨storage, length⟩ := v
  unfold ofLanes
  rw [hlanes, ← hpadding]
  exact congrArg₂ _ (List.take_append_drop _ _).symm rfl

end LaneVector

open LaneVector

/-- A pass over the whole storage that is a map there is a map of the logical lanes, into any
destination of their number. -/
theorem pass_ofLanes (pass : List α → List α → List α) {f : α → α} {xs ds : List α}
    (hlen : xs.length = ds.length)
    (hpass : pass (ofLanes xs).storage (ofLanes ds).storage = (ofLanes xs).storage.map f) :
    ({ ofLanes ds with storage := pass (ofLanes xs).storage (ofLanes ds).storage } :
      LaneVector α).clearPadding = ofLanes (xs.map f) := by
  rw [hpass, ← clearPadding_map]
  simp only [length_ofLanes, hlen]

omit [OfNat α 0] in
theorem checkLengths_eq_ok_iff {operation : String} {m n : ℕ} :
    checkLengths operation m n = .ok () ↔ m = n := by
  unfold checkLengths
  by_cases h : m = n <;> simp [h]

omit [OfNat α 0] in
theorem checkLengths_self (operation : String) (n : ℕ) : checkLengths operation n n = .ok () :=
  checkLengths_eq_ok_iff.mpr rfl

variable (k : Kernel) (xs ys ds : List α)

section Apply

variable [Add α] [Sub α] [Mul α] [Div α] (op : Operator) (s : α)

/-- Lengths are compared first; then each lane is computed from the lanes of the operands. -/
theorem Kernel.apply_eq : k.apply op (ofLanes xs) (ofLanes ys) (ofLanes ds) =
    Except.map ofLanes (do
      checkLengths "apply" xs.length ys.length
      checkLengths "apply" xs.length ds.length
      pure (List.zipWith op.apply xs ys)) := by
  refine bind_eq_map fun _ hxy => bind_eq_map fun _ hxd => ?_
  rw [length_ofLanes, length_ofLanes] at hxy hxd
  have happly := k.apply_ofLanes op (checkLengths_eq_ok_iff.mp hxy)
    (.of_length (checkLengths_eq_ok_iff.mp hxd).symm)
  unfold Kernel.apply at happly
  rwa [length_ofLanes, length_ofLanes, length_ofLanes, hxy, hxd] at happly

theorem Kernel.applyScalar_eq : k.applyScalar op (ofLanes xs) s (ofLanes ds) =
    Except.map ofLanes (do
      checkLengths "apply_scalar" xs.length ds.length
      pure (xs.map fun x => op.apply x s)) := by
  refine bind_eq_map fun _ hlen => congrArg Except.ok ?_
  have hlen := checkLengths_eq_ok_iff.mp hlen
  exact pass_ofLanes (fun a out => k.withScalar op a s out) hlen
    (k.withScalar_eq_map op s (length_storage_congr hlen))

theorem Kernel.scalarApply_eq : k.scalarApply op s (ofLanes xs) (ofLanes ds) =
    Except.map ofLanes (do
      checkLengths "scalar_apply" xs.length ds.length
      pure (xs.map fun x => op.apply s x)) := by
  refine bind_eq_map fun _ hlen => congrArg Except.ok ?_
  have hlen := checkLengths_eq_ok_iff.mp hlen
  exact pass_ofLanes (k.scalarWith op s) hlen
    (k.scalarWith_eq_map op s (length_storage_congr hlen))

end Apply

/-- The exponential runs over whole registers, so only one of a kernel's exponentials is used. -/
theorem Kernel.exp_eq [LaneExp α] [LawfulLaneExp α] : k.exp (ofLanes xs) (ofLanes ds) =
    Except.map ofLanes (do
      checkLengths "exp" xs.length ds.length
      pure (xs.map (LawfulLaneExp.lane k))) := by
  refine bind_eq_map fun _ hlen => congrArg Except.ok ?_
  have hlen := checkLengths_eq_ok_iff.mp hlen
  exact pass_ofLanes (LaneExp.run k) hlen
    (LawfulLaneExp.run_eq k (length_storage_congr hlen) (by simp [paddedLength_mod]))

/-! ## Creation and writing -/

namespace VectorUnit

variable (u : VectorUnit)

theorem ofList_eq : u.ofList xs = Except.map ofLanes (do
    u.checkCapacity xs.length
    pure xs) := by
  refine bind_eq_map fun _ _ => congrArg Except.ok ?_
  rw [zeroed_eq_ofLanes, write_ofLanes (by simp)]

theorem filled_eq (n : ℕ) (value : α) : u.filled n value = Except.map ofLanes (do
    u.checkCapacity n
    pure (List.replicate n value)) := by
  refine bind_eq_map fun _ _ => congrArg Except.ok ?_
  rw [zeroed_eq_ofLanes, write_ofLanes (by simp)]

end VectorUnit

theorem LaneVector.set?_eq (i : ℕ) (value : α) : (ofLanes xs).set? i value =
    Except.map ofLanes (if i < xs.length then .ok (xs.set i value) else .error .outOfRange) := by
  unfold set?
  by_cases hi : i < xs.length
  · rw [length_ofLanes, if_pos hi, if_pos hi]
    refine congrArg Except.ok ?_
    unfold ofLanes
    rw [List.set_append_left _ _ hi, List.length_set]
  · rw [length_ofLanes, if_neg hi, if_neg hi]
    rfl

end CurveFit

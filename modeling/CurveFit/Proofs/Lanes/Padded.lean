import CurveFit.Lanes.Vector

/-!
# Padded vectors

`LaneVector.ofLanes xs` is the vector whose logical lanes are `xs` and whose padding is zero.
Vectors are created in this form and every operation returns to it, so what an elementwise
operation leaves behind depends on the logical lanes of its operands alone:

* `VectorUnit.ofList_eq_ok`, `VectorUnit.zeros_eq_ok`: what is created;
* `LaneVector.write_ofLanes`: new lanes replace all the old ones;
* `Kernel.apply_ofLanes`: both kernels compute `zipWith` of the logical lanes.
-/

namespace CurveFit

variable {α : Type}

/-! ## Passes over plain lists -/

theorem overwrite_of_length_eq {old new : List α} (h : new.length = old.length) :
    overwrite old new = new := by
  unfold overwrite
  rw [← h, List.take_length, h, List.drop_length, List.append_nil]

@[simp] theorem length_overwrite (old new : List α) :
    (overwrite old new).length = old.length := by
  unfold overwrite
  rw [List.length_append, List.length_take, List.length_drop]
  omega

/-- Groups of four and the tail together make one `zipWith`. -/
theorem zipGroups_eq_zipWith (f : α → α → α) (a b out : List α) (done : Array α)
    (hab : a.length = b.length) (hout : a.length = out.length) :
    zipGroups f a b out done = done.toList ++ List.zipWith f a b := by
  induction a, b, out, done using zipGroups.induct (f := f) with
  | case1 x0 x1 x2 x3 a y0 y1 y2 y3 b o0 o1 o2 o3 out done ih =>
    have hab' : a.length = b.length := by simpa using hab
    have hout' : a.length = out.length := by simpa using hout
    rw [zipGroups, ih hab' hout']
    simp
  | case2 a b out done hshort =>
    have hlen : (List.zipWith f a b).length = out.length := by
      rw [List.length_zipWith]
      omega
    rw [zipGroups, zipLanes, overwrite_of_length_eq hlen]
    exact hshort

section Arithmetic

variable [Add α] [Sub α] [Mul α] [Div α]

/-- Over lists of one length both kernels compute the same lanes. -/
theorem Kernel.binary_eq_zipWith (k : Kernel) (op : Operator) {a b out : List α}
    (hab : a.length = b.length) (hout : a.length = out.length) :
    k.binary op a b out = List.zipWith op.apply a b := by
  cases k with
  | portable =>
    have hlen : (List.zipWith op.apply a b).length = out.length := by
      rw [List.length_zipWith]
      omega
    exact overwrite_of_length_eq hlen
  | avx2 =>
    show zipGroups op.apply a b out #[] = _
    rw [zipGroups_eq_zipWith op.apply a b out #[] hab hout]
    rfl

end Arithmetic

/-! ## Vectors with zero padding -/

theorem le_paddedLength (n : Nat) : n ≤ paddedLength n := by
  unfold paddedLength laneCount
  omega

/-- The number of lanes past the logical ones. -/
def paddingLength (n : Nat) : Nat := paddedLength n - n

variable [OfNat α 0]

namespace LaneVector

/-- The vector with the given logical lanes and zeros as padding. -/
def ofLanes (xs : List α) : LaneVector α :=
  ⟨xs ++ List.replicate (paddingLength xs.length) 0, xs.length⟩

/-- A vector has `n` logical lanes, and its padding is zero. -/
def HasLanes (v : LaneVector α) (n : Nat) : Prop :=
  ∃ xs : List α, xs.length = n ∧ v = ofLanes xs

theorem HasLanes.of_length {xs : List α} {n : Nat} (h : xs.length = n) :
    (ofLanes xs).HasLanes n :=
  ⟨xs, h, rfl⟩

theorem HasLanes.of_eq {v : LaneVector α} {m n : Nat} (hv : v.HasLanes n) (h : n = m) :
    v.HasLanes m :=
  h ▸ hv

@[simp] theorem length_ofLanes (xs : List α) : (ofLanes xs).length = xs.length := rfl

@[simp] theorem lanes_ofLanes (xs : List α) : (ofLanes xs).lanes = xs := by
  unfold lanes ofLanes
  exact List.take_left

@[simp] theorem length_storage_ofLanes (xs : List α) :
    (ofLanes xs).storage.length = paddedLength xs.length := by
  have h := le_paddedLength xs.length
  unfold ofLanes paddingLength
  simp only [List.length_append, List.length_replicate]
  omega

theorem zeroed_eq_ofLanes (n : Nat) :
    (zeroed n : LaneVector α) = ofLanes (List.replicate n 0) := by
  have h : paddedLength n = n + paddingLength n := by
    have := le_paddedLength n
    unfold paddingLength
    omega
  unfold zeroed ofLanes
  rw [List.length_replicate, List.replicate_append_replicate, ← h]

/-- Writing as many lanes as there are leaves nothing of the old ones. -/
theorem write_ofLanes {xs ys : List α} (h : ys.length = xs.length) :
    (ofLanes xs).write ys = ofLanes ys := by
  unfold write
  rw [lanes_ofLanes, overwrite_of_length_eq h]
  unfold ofLanes
  rw [h, List.drop_left]

theorem HasLanes.zipWith {xs ys : List α} {n : Nat} (f : α → α → α) (hx : xs.length = n)
    (hy : ys.length = n) : (ofLanes (List.zipWith f xs ys)).HasLanes n :=
  .of_length (by rw [List.length_zipWith, hx, hy, Nat.min_self])

theorem HasLanes.write {v : LaneVector α} {n : Nat} (hv : v.HasLanes n) {ys : List α}
    (h : ys.length = n) : v.write ys = ofLanes ys := by
  obtain ⟨xs, hxs, rfl⟩ := hv
  exact write_ofLanes (h.trans hxs.symm)

/-- Storage whose start is known, after the padding has been cleared. -/
theorem clearPadding_eq_ofLanes {storage xs : List α} (hlen : storage.length = paddedLength xs.length)
    (htake : storage.take xs.length = xs) :
    (LaneVector.mk storage xs.length).clearPadding = ofLanes xs := by
  show LaneVector.mk (storage.take xs.length ++ _) _ = _
  rw [htake, hlen]
  rfl

end LaneVector

open LaneVector

/-! ## Creation -/

namespace VectorUnit

theorem checkCapacity_eq_ok_iff {u : VectorUnit} {n : Nat} :
    u.checkCapacity n = .ok () ↔ n ≤ u.capacity := by
  unfold checkCapacity
  by_cases h : u.capacity < n
  · simp [h]
  · simp [h]
    omega

theorem ofList_eq_ok {u : VectorUnit} {xs : List α} (h : xs.length ≤ u.capacity) :
    u.ofList xs = .ok (ofLanes xs) := by
  unfold ofList
  rw [checkCapacity_eq_ok_iff.mpr h, zeroed_eq_ofLanes, write_ofLanes (by simp)]
  rfl

theorem zeros_eq_ok {u : VectorUnit} {n : Nat} (h : n ≤ u.capacity) :
    u.zeros n = .ok (ofLanes (List.replicate n (0 : α))) := by
  unfold zeros filled
  rw [checkCapacity_eq_ok_iff.mpr h, zeroed_eq_ofLanes, write_ofLanes rfl]
  rfl

end VectorUnit

/-! ## Elementwise operations -/

section Apply

variable [Add α] [Sub α] [Mul α] [Div α]

/-- An elementwise operation over vectors of one length leaves the operator applied lane by lane,
whatever the destination held and whichever kernel ran. -/
theorem Kernel.apply_ofLanes (k : Kernel) (op : Operator) {a b : List α} {dst : LaneVector α}
    (hab : a.length = b.length) (hdst : dst.HasLanes a.length) :
    k.apply op (ofLanes a) (ofLanes b) dst = .ok (ofLanes (List.zipWith op.apply a b)) := by
  obtain ⟨d, hd, rfl⟩ := hdst
  have hlen : (List.zipWith op.apply a b).length = a.length := by
    rw [List.length_zipWith, hab, Nat.min_self]
  have hstorage : k.binary op (ofLanes a).storage (ofLanes b).storage (ofLanes d).storage =
      List.zipWith op.apply (ofLanes a).storage (ofLanes b).storage :=
    k.binary_eq_zipWith op (by simp [hab]) (by simp [hd])
  have hclear : (LaneVector.mk (List.zipWith op.apply (ofLanes a).storage (ofLanes b).storage)
      (List.zipWith op.apply a b).length).clearPadding = ofLanes (List.zipWith op.apply a b) := by
    apply clearPadding_eq_ofLanes
    · rw [List.length_zipWith, hlen]
      simp [hab]
    · unfold ofLanes
      rw [List.zipWith_append hab, List.take_left]
  unfold Kernel.apply checkLengths
  simp only [length_ofLanes, hab, hd.trans hab, if_true, hstorage]
  rw [hlen, hab] at hclear
  exact congrArg Except.ok hclear

end Apply

end CurveFit

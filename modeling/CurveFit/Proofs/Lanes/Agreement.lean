import CurveFit.Proofs.Lanes.Elementwise
import CurveFit.Proofs.Lanes.Sums

/-!
# Both kernels compute the same

Groups of four and the lanes after the last group cover every index once, whatever the length: a
pass of either kernel leaves at each index the operator applied to what its operands hold there, in
their order (`Kernel.fills_binary`, `Kernel.fills_withScalar`, `Kernel.fills_scalarWith`).  This
holds in any arithmetic, so that in binary64 the lanes agree to the bit.  Reductions add in different
orders and agree where addition is exact.  `Kernel.passes_agree` collects all this.
-/

namespace CurveFit

variable {α : Type}

/-- A result has `n` lanes, and what it holds at each index is known. -/
structure Fills (result : List α) (n : ℕ) (lane : ℕ → Option α) : Prop where
  length : result.length = n
  lane : ∀ i < n, result[i]? = lane i

/-- Results that hold the same at every index are equal. -/
theorem Fills.eq {l l' : List α} {n : ℕ} {lane : ℕ → Option α} (h : Fills l n lane)
    (h' : Fills l' n lane) : l = l' := by
  refine List.ext_getElem? fun i => ?_
  by_cases hi : i < n
  · rw [h.lane i hi, h'.lane i hi]
  · rw [List.getElem?_eq_none (by rw [h.length]; omega),
      List.getElem?_eq_none (by rw [h'.length]; omega)]

theorem fills_map (f : α → α) {a : List α} {n : ℕ} (ha : a.length = n) :
    Fills (a.map f) n fun i => a[i]?.map f where
  length := (List.length_map f).trans ha
  lane _ _ := List.getElem?_map

theorem fills_zipWith (f : α → α → α) {a b : List α} {n : ℕ} (ha : a.length = n)
    (hb : b.length = n) : Fills (List.zipWith f a b) n fun i => Option.map₂ f a[i]? b[i]? where
  length := by rw [List.length_zipWith, ha, hb, Nat.min_self]
  lane i _ := by
    rw [List.getElem?_zipWith]
    cases a[i]? <;> cases b[i]? <;> rfl

section Passes

variable [Add α] [Sub α] [Mul α] [Div α] (k : Kernel) (op : Operator) (s : α) {a b out : List α}

theorem Kernel.fills_binary (ha : a.length = out.length) (hb : b.length = out.length) :
    Fills (k.binary op a b out) out.length fun i => Option.map₂ op.apply a[i]? b[i]? := by
  rw [k.binary_eq_zipWith op (ha.trans hb.symm) ha]
  exact fills_zipWith op.apply ha hb

theorem Kernel.fills_withScalar (ha : a.length = out.length) :
    Fills (k.withScalar op a s out) out.length fun i => a[i]?.map fun x => op.apply x s := by
  rw [k.withScalar_eq_map op s ha]
  exact fills_map _ ha

theorem Kernel.fills_scalarWith (ha : a.length = out.length) :
    Fills (k.scalarWith op s a out) out.length fun i => a[i]?.map fun x => op.apply s x := by
  rw [k.scalarWith_eq_map op s ha]
  exact fills_map _ ha

end Passes

/-- **Both kernels.**  Over lists of one length, whatever it is, a pass of either kernel writes every
lane of its destination, and at each index the operator applied to the operands there in their
order; so the kernels write the same, in any arithmetic.  In exact arithmetic their sums are the sum
of the lanes, and their sums of products the sum of the products.  A sum of products goes as far as
the shorter list. -/
theorem Kernel.passes_agree {α K : Type} [OfNat α 0] [Add α] [Sub α] [Mul α] [Div α] [Neg α] [Ring K]
    (op : Operator) (s : α) {a b out : List α} (ha : a.length = out.length)
    (hb : b.length = out.length) (l l' : List K) (m m' : List α) :
    (∀ k : Kernel,
      Fills (k.binary op a b out) out.length (fun i => Option.map₂ op.apply a[i]? b[i]?) ∧
        Fills (k.withScalar op a s out) out.length (fun i => a[i]?.map fun x => op.apply x s) ∧
          Fills (k.scalarWith op s a out) out.length fun i => a[i]?.map fun x => op.apply s x) ∧
    (Kernel.avx2.binary op a b out = Kernel.portable.binary op a b out ∧
      Kernel.avx2.withScalar op a s out = Kernel.portable.withScalar op a s out ∧
        Kernel.avx2.scalarWith op s a out = Kernel.portable.scalarWith op s a out) ∧
    (∀ k : Kernel, k.sum l = l.sum ∧ k.dot l l' = (List.zipWith (· * ·) l l').sum) ∧
    (Kernel.avx2.sum l = Kernel.portable.sum l ∧ Kernel.avx2.dot l l' = Kernel.portable.dot l l') ∧
    ∀ k : Kernel, k.dot m m' =
      k.dot (m.take (min m.length m'.length)) (m'.take (min m.length m'.length)) := by
  have hbinary (k : Kernel) := k.fills_binary op ha hb
  have hwith (k : Kernel) := k.fills_withScalar op s ha
  have hscalar (k : Kernel) := k.fills_scalarWith op s ha
  refine ⟨fun k => ⟨hbinary k, hwith k, hscalar k⟩, ⟨?_, ?_, ?_⟩,
    fun k => ⟨k.sum_eq l, k.dot_eq l l'⟩, ⟨?_, ?_⟩, fun k => k.dot_take m m'⟩
  · exact (hbinary .avx2).eq (hbinary .portable)
  · exact (hwith .avx2).eq (hwith .portable)
  · exact (hscalar .avx2).eq (hscalar .portable)
  · rw [Kernel.sum_eq, Kernel.sum_eq]
  · rw [Kernel.dot_eq, Kernel.dot_eq]

/-- Seven lanes, one group and three after it: differences written over zeros, and the products of
seven numbers with five. -/
theorem Kernel.passes_agree_seven_lanes :
    let a : List Float := [7.5, 1.0, 0.1, -2.0, 0.0, 3.0, 0.3]
    let b : List Float := [0.5, 2.0, 0.2, -2.0, 5.0, 1.0, -0.7]
    let out : List Float := List.replicate 7 0.0
    let l : List ℚ := [1, 2, 3, 4, 5, 6, 7]
    let l' : List ℚ := [1, 1, 1, 1, 1 / 5]
    Kernel.avx2.binary .sub a b out = Kernel.portable.binary .sub a b out ∧
      (Kernel.avx2.binary .sub a b out)[6]? = some (0.3 - -0.7) ∧
        (Kernel.avx2.scalarWith .div 3.0 a out)[5]? = some (3.0 / 3.0) ∧
          Kernel.avx2.sum l = 28 ∧ Kernel.avx2.dot l l' = 11 ∧
            Kernel.avx2.dot a [2.0, 1.0] = Kernel.avx2.dot [7.5, 1.0] [2.0, 1.0] := by
  intro a b out l l'
  obtain ⟨hfills, ⟨hbinary, -, -⟩, hexact, -, htake⟩ :=
    Kernel.passes_agree .sub (3.0 : Float) (by rfl : a.length = out.length)
      (by rfl : b.length = out.length) l l' a [2.0, 1.0]
  obtain ⟨-, -, hscalar⟩ := (Kernel.passes_agree .div (3.0 : Float)
    (by rfl : a.length = out.length) (by rfl : b.length = out.length) l l' a b).1 .avx2
  refine ⟨hbinary, (hfills .avx2).1.lane 6 (by decide), hscalar.lane 5 (by decide), ?_, ?_,
    htake .avx2⟩
  · rw [(hexact .avx2).1]
    norm_num [l]
  · rw [(hexact .avx2).2]
    norm_num [l, l']

end CurveFit

import Moose.Host.Ops

/-!
# Signed comparison of ring tensors

`LessOp::host_ring64_kernel` and `host_ring128_kernel` read the sign of
the wrapping difference `x - y` as the answer to `x < y` between two's
complement integers. That answer is signed order exactly where the signed
difference of the two elements fits in the ring; where it does not (an element
near the minimum less a positive one, or the reverse), the kernel answers the
opposite.
-/

namespace Moose.Host

section Element

variable {w : Nat}

/-- The signed difference `(a as iN) - (b as iN)` lies in the range of `iN`. -/
def SubFits (a b : BitVec w) : Prop :=
  -2 ^ (w - 1) ≤ a.toInt - b.toInt ∧ a.toInt - b.toInt < 2 ^ (w - 1)

instance (a b : BitVec w) : Decidable (SubFits a b) := inferInstanceAs (Decidable (_ ∧ _))

theorem sub_toNat_cases (a b : BitVec w) :
    (b.toNat ≤ a.toNat ∧ (a - b).toNat = a.toNat - b.toNat) ∨
      (a.toNat < b.toNat ∧ (a - b).toNat = 2 ^ w - (b.toNat - a.toNat)) := by
  rcases Nat.lt_or_ge a.toNat b.toNat with lt | le
  · exact .inr ⟨lt, BitVec.toNat_sub_of_lt (BitVec.lt_def.2 lt)⟩
  · exact .inl ⟨le, BitVec.toNat_sub_of_le (BitVec.le_def.2 le)⟩

/-- The wrapping difference is negative exactly when signed order and the fit
of the signed difference agree. -/
theorem toInt_sub_neg_iff (a b : BitVec w) :
    (a - b).toInt < 0 ↔ (a.toInt < b.toInt ↔ SubFits a b) := by
  have bounded := a.isLt
  have bounded' := b.isLt
  cases w with
  | zero =>
    obtain rfl := BitVec.eq_nil a
    obtain rfl := BitVec.eq_nil b
    decide
  | succ n =>
    have double : 2 ^ (n + 1) = 2 * 2 ^ n := Nat.pow_succ'
    have half : (2 : Int) ^ n = ((2 ^ n : Nat) : Int) := by norm_cast
    simp only [SubFits, BitVec.toInt_eq_toNat_cond, Nat.add_sub_cancel, half]
    rcases sub_toNat_cases a b with ⟨le, difference⟩ | ⟨lt, difference⟩ <;>
      rw [difference] <;> split_ifs <;> omega

/-- The kernel's bit for one pair of elements. -/
theorem lessBit_sub (a b : BitVec w) :
    lessBit (a - b) = if (a.toInt < b.toInt ↔ SubFits a b) then 1 else 0 := by
  simp only [lessBit, toInt_sub_neg_iff]

end Element

/-- On tensors of one shape the ring kernel answers, position by position,
signed order where the signed difference fits and its negation where it does
not. -/
theorem LessOp.hostRingKernel_of_same {w : Nat} {x y : HostRingTensor w} (same : x.shape = y.shape) :
    ∃ t, LessOp.hostRingKernel w x y = .ok t ∧ t.shape = x.shape ∧
      ∀ (j : Nat) a b, x.elems[j]? = some a → y.elems[j]? = some b →
        t.elems[j]? = some (if (a.toInt < b.toInt ↔ SubFits a b) then 1 else 0) := by
  refine ⟨_, by rw [LessOp.hostRingKernel, ArrayD.zipBroadcast_of_same _ same]; rfl, rfl,
    fun j a b found found' => ?_⟩
  simp [List.getElem?_zipWith, found, found', lessBit_sub]

/-- Elements within half the signed range have a difference that fits: on them
the kernel's bit is signed order. -/
theorem lessBit_sub_of_bounded {w : Nat} (wide : 2 ≤ w) {a b : BitVec w}
    (bounded : -2 ^ (w - 2) ≤ a.toInt ∧ a.toInt < 2 ^ (w - 2))
    (bounded' : -2 ^ (w - 2) ≤ b.toInt ∧ b.toInt < 2 ^ (w - 2)) :
    lessBit (a - b) = if a.toInt < b.toInt then 1 else 0 := by
  have half : (2 : Int) ^ (w - 1) = 2 * 2 ^ (w - 2) := by
    rw [← pow_succ']
    congr 1
    omega
  have fits : SubFits a b := by
    unfold SubFits
    omega
  simp only [lessBit_sub, fits, iff_true]

/-- On tensors of one shape whose elements lie within half the signed range,
the ring kernel is signed order. -/
theorem LessOp.hostRingKernel_of_bounded {w : Nat} (wide : 2 ≤ w) {x y : HostRingTensor w}
    (same : x.shape = y.shape) (bounded : ∀ a ∈ x.elems, -2 ^ (w - 2) ≤ a.toInt ∧ a.toInt < 2 ^ (w - 2))
    (bounded' : ∀ b ∈ y.elems, -2 ^ (w - 2) ≤ b.toInt ∧ b.toInt < 2 ^ (w - 2)) :
    ∃ t, LessOp.hostRingKernel w x y = .ok t ∧ t.shape = x.shape ∧
      ∀ (j : Nat) a b, x.elems[j]? = some a → y.elems[j]? = some b →
        t.elems[j]? = some (if a.toInt < b.toInt then 1 else 0) := by
  refine ⟨_, by rw [LessOp.hostRingKernel, ArrayD.zipBroadcast_of_same _ same]; rfl, rfl,
    fun j a b found found' => ?_⟩
  simp [List.getElem?_zipWith, found, found',
    lessBit_sub_of_bounded wide (bounded a (List.getElem?_mem found)) (bounded' b (List.getElem?_mem found'))]

/-- The least 64-bit integer is less than 1, but its difference with 1 wraps
to the greatest, whose sign bit is clear. -/
theorem ring64_less_wraps_at_minimum :
    LessOp.hostRing64Kernel (ArrayD.fromElem [1] (BitVec.ofNat 64 (2 ^ 63))) (ArrayD.fromElem [1] 1) =
      .ok (ArrayD.fromElem [1] 0) ∧ (BitVec.ofNat 64 (2 ^ 63)).toInt < (1 : BitVec 64).toInt :=
  ⟨rfl, by decide⟩

/-- `LessOp::host_ring64_kernel` and `host_ring128_kernel`, on tensors of one
shape, are 1 where signed order and the fit of the signed difference agree and
0 elsewhere: signed order on every pair whose difference fits, its negation on
every other. -/
theorem ring_less_kernels_exact_when_difference_fits :
    (∀ x y : HostRing64Tensor, x.shape = y.shape →
      ∃ t, LessOp.hostRing64Kernel x y = .ok t ∧ t.shape = x.shape ∧
        ∀ (j : Nat) a b, x.elems[j]? = some a → y.elems[j]? = some b →
          t.elems[j]? = some (if (a.toInt < b.toInt ↔ SubFits a b) then 1 else 0)) ∧
    (∀ x y : HostRing128Tensor, x.shape = y.shape →
      ∃ t, LessOp.hostRing128Kernel x y = .ok t ∧ t.shape = x.shape ∧
        ∀ (j : Nat) a b, x.elems[j]? = some a → y.elems[j]? = some b →
          t.elems[j]? = some (if (a.toInt < b.toInt ↔ SubFits a b) then 1 else 0)) :=
  ⟨fun _ _ => LessOp.hostRingKernel_of_same, fun _ _ => LessOp.hostRingKernel_of_same⟩

/-- The kernel at the least 64-bit integer and 1, where the difference does not fit. -/
theorem ring_less_kernels_exact_at_minimum :
    (ArrayD.fromElem [1] (BitVec.ofNat 64 (2 ^ 63))).shape = (ArrayD.fromElem [1] (1 : BitVec 64)).shape ∧
      ∃ t, LessOp.hostRing64Kernel (ArrayD.fromElem [1] (BitVec.ofNat 64 (2 ^ 63))) (ArrayD.fromElem [1] 1) = .ok t ∧
        t.shape = [1] ∧ ∀ (j : Nat) a b, (ArrayD.fromElem [1] (BitVec.ofNat 64 (2 ^ 63))).elems[j]? = some a →
          (ArrayD.fromElem [1] (1 : BitVec 64)).elems[j]? = some b →
            t.elems[j]? = some (if (a.toInt < b.toInt ↔ SubFits a b) then 1 else 0) :=
  ⟨rfl, ring_less_kernels_exact_when_difference_fits.1 _ _ rfl⟩

/-- `LessOp::host_ring64_kernel` and `host_ring128_kernel` are signed order on
tensors of one shape whose elements lie in `[-2^62, 2^62)` (`[-2^126, 2^126)`). -/
theorem ring_less_kernels_signed_order_of_bounded :
    (∀ x y : HostRing64Tensor, x.shape = y.shape →
      (∀ a ∈ x.elems, -2 ^ 62 ≤ a.toInt ∧ a.toInt < 2 ^ 62) → (∀ b ∈ y.elems, -2 ^ 62 ≤ b.toInt ∧ b.toInt < 2 ^ 62) →
      ∃ t, LessOp.hostRing64Kernel x y = .ok t ∧ t.shape = x.shape ∧
        ∀ (j : Nat) a b, x.elems[j]? = some a → y.elems[j]? = some b →
          t.elems[j]? = some (if a.toInt < b.toInt then 1 else 0)) ∧
    (∀ x y : HostRing128Tensor, x.shape = y.shape →
      (∀ a ∈ x.elems, -2 ^ 126 ≤ a.toInt ∧ a.toInt < 2 ^ 126) →
      (∀ b ∈ y.elems, -2 ^ 126 ≤ b.toInt ∧ b.toInt < 2 ^ 126) →
      ∃ t, LessOp.hostRing128Kernel x y = .ok t ∧ t.shape = x.shape ∧
        ∀ (j : Nat) a b, x.elems[j]? = some a → y.elems[j]? = some b →
          t.elems[j]? = some (if a.toInt < b.toInt then 1 else 0)) :=
  ⟨fun _ _ same => LessOp.hostRingKernel_of_bounded (by decide) same,
    fun _ _ same => LessOp.hostRingKernel_of_bounded (by decide) same⟩

/-- Comparing 0 with 1 at 64 bits. -/
theorem ring_less_kernels_signed_order_of_zero_one :
    ∃ t, LessOp.hostRing64Kernel (ArrayD.fromElem [1] 0) (ArrayD.fromElem [1] 1) = .ok t ∧ t.shape = [1] ∧
      ∀ (j : Nat) a b, (ArrayD.fromElem [1] (0 : BitVec 64)).elems[j]? = some a →
        (ArrayD.fromElem [1] (1 : BitVec 64)).elems[j]? = some b →
          t.elems[j]? = some (if a.toInt < b.toInt then 1 else 0) :=
  ring_less_kernels_signed_order_of_bounded.1 _ _ rfl (by simp) (by simp [BitVec.toInt_eq_toNat_cond])

end Moose.Host

import Moose.Host.Ops

/-!
# Bit decomposition and recomposition of ring tensors

`HostBitDecOp::bit64_kernel` and `bit128_kernel` write bit `i` of every element
of a ring tensor into plane `i` of a bit tensor. Reading plane `i` back with
`IndexAxisOp::host_bit_kernel`, shifting it into place with
`RingInjectOp::host_kernel` and adding the planes with `AddNOp::host_kernel`
rebuilds the tensor, whatever its shape and elements. The element law is the
binary expansion: the first `m` injected bits add up, in the ring, to the
element modulo `2 ^ m`.
-/

namespace Moose.Host

section Element

variable {w : Nat}

/-- Bit `i` of `v`, cut to a `u8` as `BitExtractOp` and `HostBitDecOp` do. -/
theorem toNat_setWidth_shr_and_one {i : Nat} (within : i < w) (v : BitVec w) :
    ((shr i v &&& 1).setWidth 8).toNat = v.toNat / 2 ^ i % 2 := by
  have one : (1 : BitVec w).toNat = 1 := by
    simp [Nat.mod_eq_of_lt (Nat.one_lt_two_pow (by omega : w ≠ 0))]
  have bit : v.toNat / 2 ^ i % 2 < 2 ^ 8 := Nat.lt_of_lt_of_le (Nat.mod_lt _ (by decide)) (by decide)
  simp only [shr, Nat.mod_eq_of_lt within, BitVec.toNat_setWidth, BitVec.toNat_and, BitVec.toNat_ushiftRight,
    one, Nat.and_one_is_mod, Nat.shiftRight_eq_div_pow, Nat.mod_eq_of_lt bit]

/-- The `u8` a plane holds for `v` is bit `i` of `v`. -/
theorem setWidth_shr_and_one {i : Nat} (within : i < w) (v : BitVec w) :
    (shr i v &&& 1).setWidth 8 = if v.getLsbD i then 1 else 0 := by
  apply BitVec.eq_of_toNat_eq
  rw [toNat_setWidth_shr_and_one within, BitVec.getLsbD, Nat.testBit_to_div_mod]
  by_cases set : v.toNat / 2 ^ i % 2 = 1
  · simp [set]
  · simp only [set, decide_False, Bool.false_eq_true, if_false]
    show _ = 0
    omega

/-- Bit `i` of `v`, injected back into the ring at position `i`, is the
`2 ^ i` term of the binary expansion of `v`. -/
theorem toNat_inject_extract {i : Nat} (within : i < w) (v : BitVec w) :
    (shl i (((shr i v &&& 1).setWidth 8).setWidth w)).toNat = v.toNat / 2 ^ i % 2 * 2 ^ i := by
  have bit : v.toNat / 2 ^ i % 2 < 2 := Nat.mod_lt _ (by decide)
  have room : v.toNat / 2 ^ i % 2 * 2 ^ i < 2 ^ w :=
    calc v.toNat / 2 ^ i % 2 * 2 ^ i ≤ 1 * 2 ^ i := Nat.mul_le_mul_right _ (by omega)
      _ < 2 ^ w := by rw [Nat.one_mul]; exact Nat.pow_lt_pow_right (by decide) within
  have small : v.toNat / 2 ^ i % 2 < 2 ^ w := Nat.lt_of_lt_of_le bit (Nat.one_lt_two_pow (by omega))
  rw [shl, BitVec.toNat_shiftLeft, BitVec.toNat_setWidth, toNat_setWidth_shr_and_one within,
    Nat.mod_eq_of_lt small, Nat.mod_eq_of_lt within, Nat.shiftLeft_eq, Nat.mod_eq_of_lt room]

/-- The sum of the first `m` injected bits is the element modulo `2 ^ m`. -/
theorem toNat_sum_inject_extract (v : BitVec w) :
    ∀ m ≤ w, (((List.range m).map fun i => shl i (((shr i v &&& 1).setWidth 8).setWidth w)).foldl
      (· + ·) 0).toNat = v.toNat % 2 ^ m
  | 0, _ => by simp [Nat.mod_one]
  | m + 1, within => by
    rw [List.range_succ, List.map_append, List.foldl_append, List.map_singleton, List.foldl_cons,
      List.foldl_nil, BitVec.toNat_add, toNat_sum_inject_extract v m (by omega),
      toNat_inject_extract (by omega), Nat.mod_pow_succ, Nat.mul_comm (2 ^ m)]
    apply Nat.mod_eq_of_lt
    calc v.toNat % 2 ^ m + v.toNat / 2 ^ m % 2 * 2 ^ m
        = v.toNat % 2 ^ (m + 1) := by rw [Nat.mod_pow_succ, Nat.mul_comm (2 ^ m)]
      _ < 2 ^ (m + 1) := Nat.mod_lt _ (Nat.two_pow_pos _)
      _ ≤ 2 ^ w := Nat.pow_le_pow_right (by decide) within

/-- All `w` injected bits add up to the element. -/
theorem foldl_inject_extract (n : Nat) (v : BitVec (n + 1)) :
    ((List.range n).map fun i => shl (i + 1) (((shr (i + 1) v &&& 1).setWidth 8).setWidth (n + 1))).foldl
      (· + ·) (shl 0 (((shr 0 v &&& 1).setWidth 8).setWidth (n + 1))) = v := by
  apply BitVec.eq_of_toNat_eq
  have whole := toNat_sum_inject_extract v (n + 1) (Nat.le_refl _)
  rw [List.range_succ_eq_map, List.map_cons, List.foldl_cons, BitVec.ofNat_eq_ofNat, BitVec.zero_add,
    List.map_map, Nat.mod_eq_of_lt v.isLt] at whole
  exact whole

/-- `(v & 1) as u8`, widened back into the ring, is `v & 1`. -/
theorem setWidth_setWidth_and_one (v : BitVec w) : ((v &&& 1).setWidth 8).setWidth w = v &&& 1 := by
  have masked : (v &&& 1).toNat ≤ 1 := by
    rw [BitVec.toNat_and]
    exact Nat.le_trans Nat.and_le_right (by simp [Nat.mod_le])
  apply BitVec.eq_of_toNat_eq
  rw [BitVec.toNat_setWidth, BitVec.toNat_setWidth, Nat.mod_eq_of_lt (by omega : (v &&& 1).toNat < 2 ^ 8),
    Nat.mod_eq_of_lt (BitVec.isLt _)]

/-- Bit `i` of `v << k` is bit `i - k` of `v` from `k` up, and 0 below. -/
theorem setWidth_shr_shl_and_one {i k : Nat} (within : i < w) (shift : k < w) (v : BitVec w) :
    (shr i (shl k v) &&& 1).setWidth 8 = if i < k then 0 else (shr (i - k) v &&& 1).setWidth 8 := by
  have bit : (shl k v).getLsbD i = (!decide (i < k) && v.getLsbD (i - k)) := by
    simp [shl, BitVec.getLsbD_shiftLeft, Nat.mod_eq_of_lt shift, within]
  rw [setWidth_shr_and_one within, bit]
  by_cases below : i < k
  · simp [below]
  · rw [if_neg below, setWidth_shr_and_one (by omega)]
    simp [below]

/-- A bit injected at position `i` and read back from there is itself. -/
theorem extract_inject {i : Nat} (within : i < w) {v : BitVec 8} (bit : IsBit v) :
    (shr i (shl i (v.setWidth w)) &&& 1).setWidth 8 = v := by
  rw [setWidth_shr_and_one within]
  rcases bit with rfl | rfl <;>
    simp [shl, BitVec.getLsbD_shiftLeft, Nat.mod_eq_of_lt within, within, Nat.zero_lt_of_lt within]

end Element
/-! ## Tensors -/

section Tensor

variable {w : Nat}

/-- The `u8` planes of the decomposition: plane `i` holds bit `i` of every
element. -/
theorem HostBitDecOp.bitKernel_eq (positive : 0 < w) (x : HostRingTensor w) :
    ∃ bits, HostBitDecOp.bitKernel w x = .ok bits ∧ bits.shape = w :: x.shape ∧
      bits.elems = (List.range w).flatMap fun i => x.elems.map fun v => (shr i v &&& 1).setWidth 8 := by
  obtain ⟨planes, planesOk, shape, elems⟩ := HostBitDecOp.bitRep_eq positive x
  refine ⟨planes.mapv (BitVec.setWidth 8), by rw [HostBitDecOp.bitKernel, planesOk]; rfl, shape, ?_⟩
  simp only [ArrayD.mapv_elems, elems, List.map_flatMap, List.map_map, Function.comp_def]

/-- Reading plane `i` of the decomposition gives bit `i` of every element, in
the shape of `x`. -/
theorem IndexAxisOp.hostBitKernel_plane {x : HostRingTensor w} {bits : HostBitTensor}
    (shape : bits.shape = w :: x.shape)
    (elems : bits.elems = (List.range w).flatMap fun i => x.elems.map fun v => (shr i v &&& 1).setWidth 8)
    {i : Nat} (within : i < w) :
    IndexAxisOp.hostBitKernel 0 i bits = .ok (x.mapv fun v => (shr i v &&& 1).setWidth 8) := by
  obtain ⟨plane, planeOk, planeShape, planeElems⟩ := ArrayD.indexAxis_zero shape within
  rw [IndexAxisOp.hostBitKernel, planeOk]
  refine congrArg Except.ok (ArrayD.ext planeShape ?_)
  have sized : ∀ j ∈ List.range w, (x.elems.map fun v => (shr j v &&& 1).setWidth 8).length = x.shape.prod :=
    fun _ _ => by simp [x.elems_length]
  have whole := map_getD_range (x.elems.map fun v => (shr i v &&& 1).setWidth 8) default
  rw [List.length_map, x.elems_length] at whole
  rw [planeElems, elems, ArrayD.mapv_elems, ← whole]
  refine List.map_congr_left fun k mem => ?_
  rw [getD_flatMap_uniform sized (by simpa using within) (List.mem_range.1 mem), List.getElem_range]

/-- Decomposing `x` into bits and adding the bits back, each injected at its
position, gives `x`. -/
theorem bitDecompose_recompose (positive : 0 < w) (x : HostRingTensor w) :
    (do
      let bits ← HostBitDecOp.bitKernel w x
      let injected ← (List.range w).mapM fun i =>
        IndexAxisOp.hostBitKernel 0 i bits >>= RingInjectOp.hostKernel w i
      AddNOp.hostKernel injected) = .ok x := by
  obtain ⟨bits, bitsOk, shape, elems⟩ := HostBitDecOp.bitKernel_eq positive x
  have each : ∀ i ∈ List.range w, (IndexAxisOp.hostBitKernel 0 i bits >>= RingInjectOp.hostKernel w i) =
      .ok (x.mapv fun v => shl i (((shr i v &&& 1).setWidth 8).setWidth w)) := fun i mem => by
    rw [IndexAxisOp.hostBitKernel_plane shape elems (List.mem_range.1 mem)]
    exact congrArg Except.ok (ArrayD.mapv_mapv _ _ x)
  obtain ⟨n, rfl⟩ : ∃ n, w = n + 1 := ⟨w - 1, by omega⟩
  rw [bitsOk]
  show (List.range (n + 1)).mapM _ >>= AddNOp.hostKernel = _
  rw [ArrayD.mapM_ok each, List.range_succ_eq_map, List.map_cons, List.map_map]
  refine (ArrayD.foldlM_zipBroadcast_mapv (· + ·) x
    (fun i v => shl (i + 1) (((shr (i + 1) v &&& 1).setWidth 8).setWidth (n + 1))) (List.range n) _).trans ?_
  exact congrArg Except.ok (ArrayD.ext rfl (by simp only [ArrayD.mapv_elems, foldl_inject_extract, List.map_id']))

/-- Element `j` of plane `i` of the decomposition is bit `i` of element `j`. -/
theorem HostBitDecOp.bitKernel_getLsbD (positive : 0 < w) (x : HostRingTensor w) :
    ∃ bits, HostBitDecOp.bitKernel w x = .ok bits ∧ bits.shape = w :: x.shape ∧
      ∀ i < w, ∀ (j : Nat) v, x.elems[j]? = some v →
        bits.elems[i * x.shape.prod + j]? = some (if v.getLsbD i then 1 else 0) := by
  obtain ⟨bits, bitsOk, shape, elems⟩ := HostBitDecOp.bitKernel_eq positive x
  refine ⟨bits, bitsOk, shape, fun i within j v found => ?_⟩
  have place : j < x.shape.prod := x.elems_length ▸ (List.getElem?_eq_some_iff.1 found).1
  have sized : ∀ k ∈ List.range w, (x.elems.map fun v => (shr k v &&& 1).setWidth 8).length = x.shape.prod :=
    fun _ _ => by simp [x.elems_length]
  have inRange : i * x.shape.prod + j < bits.elems.length :=
    calc i * x.shape.prod + j < (i + 1) * x.shape.prod := by rw [Nat.succ_mul]; omega
      _ ≤ w * x.shape.prod := Nat.mul_le_mul_right _ within
      _ = bits.elems.length := by rw [bits.elems_length, shape, List.prod_cons]
  have value : bits.elems.getD (i * x.shape.prod + j) default = if v.getLsbD i then 1 else 0 := by
    rw [elems, getD_flatMap_uniform sized (by simpa using within) place, List.getElem_range,
      List.getD_eq_getElem?_getD, List.getElem?_map, found, Option.map_some', Option.getD_some,
      setWidth_shr_and_one within]
  rw [← value, List.getD_eq_getElem?_getD, List.getElem?_eq_getElem inRange, Option.getD_some]

/-- `BitExtractOp::kernel` reads plane `i` of the decomposition, for every bit
index of the ring. -/
theorem BitExtractOp.kernel_eq_plane (x : HostRingTensor w) {i : Nat} (within : i < w) :
    (HostBitDecOp.bitKernel w x >>= IndexAxisOp.hostBitKernel 0 i) = BitExtractOp.kernel w i x := by
  obtain ⟨bits, bitsOk, shape, elems⟩ := HostBitDecOp.bitKernel_eq (Nat.zero_lt_of_lt within) x
  rw [bitsOk]
  show IndexAxisOp.hostBitKernel 0 i bits = _
  rw [IndexAxisOp.hostBitKernel_plane shape elems within, BitExtractOp.kernel, ArrayD.mapv_mapv]
  rfl

/-- The ring-valued decomposition is the bit-valued one widened back into the
ring. -/
theorem HostBitDecOp.bitRep_eq_widened (positive : 0 < w) (x : HostRingTensor w) :
    HostBitDecOp.bitRep w x = (HostBitDecOp.bitKernel w x).map (ArrayD.mapv (BitVec.setWidth w)) := by
  obtain ⟨planes, planesOk, -, elems⟩ := HostBitDecOp.bitRep_eq positive x
  rw [HostBitDecOp.bitKernel, planesOk]
  refine congrArg Except.ok ((ArrayD.mapv_mapv _ _ planes).trans (ArrayD.mapv_eq_self fun v mem => ?_)).symm
  rw [elems] at mem
  obtain ⟨i, -, v', -, rfl⟩ := by simpa only [List.mem_flatMap, List.mem_map] using mem
  exact setWidth_setWidth_and_one _

/-- Shifting the planes of the decomposition up by `k` decomposes the ring
shift by `k`, for every shift within the width: zero planes below `k`, plane
`i - k` at `i`. -/
theorem HostShlDimOp.bitKernel_decomposes_shl (x : HostRingTensor w) {k : Nat} (shift : k < w) :
    ∃ t, (HostBitDecOp.bitKernel w x >>= HostShlDimOp.bitKernel k w) = .ok t ∧
      (RingShlOp.kernel k x >>= HostBitDecOp.bitKernel w) = .ok t := by
  have positive : 0 < w := Nat.zero_lt_of_lt shift
  obtain ⟨bits, bitsOk, shape, elems⟩ := HostBitDecOp.bitKernel_eq positive x
  obtain ⟨shifted, shiftedOk, shiftedShape, shiftedElems⟩ := HostBitDecOp.bitKernel_eq positive (x.mapv (shl k))
  refine ⟨shifted, ?_, shiftedOk⟩
  have slice : ∀ i ∈ List.range w,
      (if i < k then pure (ArrayD.fromElem x.shape 0) else ArrayD.indexAxis 0 (i - k) bits) =
        .ok (x.mapv fun v => (shr i (shl k v) &&& 1).setWidth 8) := fun i mem => by
    have within := List.mem_range.1 mem
    simp only [setWidth_shr_shl_and_one within shift]
    by_cases below : i < k
    · simp only [below, if_true, ArrayD.mapv_const]
      rfl
    · simp only [below, if_false]
      exact IndexAxisOp.hostBitKernel_plane shape elems (by omega)
  obtain ⟨stacked, stackedOk, stackedShape, stackedElems⟩ :=
    ArrayD.stack_range_mapv positive x fun i v => (shr i (shl k v) &&& 1).setWidth 8
  rw [bitsOk]
  show HostShlDimOp.bitKernel k w bits = _
  rw [HostShlDimOp.bitKernel_of_shape shape, ArrayD.mapM_ok slice]
  show orKernelError (ArrayD.stack _) = _
  rw [stackedOk]
  refine congrArg Except.ok (ArrayD.ext (by rw [stackedShape, shiftedShape]; rfl) ?_)
  rw [stackedElems, shiftedElems]
  simp only [ArrayD.mapv_elems, List.map_map, Function.comp_def]

/-- `BitExtractOp::kernel` at `i` undoes `RingInjectOp::host_kernel` at `i` on
every bit tensor. -/
theorem BitExtractOp.kernel_after_inject {i : Nat} (within : i < w) {b : HostBitTensor} (valid : ValidBits b) :
    (RingInjectOp.hostKernel w i b >>= BitExtractOp.kernel w i) = .ok b := by
  show BitExtractOp.kernel w i (b.mapv _) = _
  rw [BitExtractOp.kernel, ArrayD.mapv_mapv, ArrayD.mapv_mapv]
  exact congrArg Except.ok (ArrayD.mapv_eq_self fun v mem => extract_inject within (valid v mem))

/-- `bit_extract(i, ring_inject(i, b)) == b` through the host kernels, for
every bit tensor and every bit index of the ring, at both ring widths. -/
theorem extract_after_inject_recovers_bits :
    (∀ b : HostBitTensor, ValidBits b → ∀ i < 64,
      (RingInjectOp.hostKernel 64 i b >>= BitExtractOp.kernel64 i) = .ok b) ∧
    (∀ b : HostBitTensor, ValidBits b → ∀ i < 128,
      (RingInjectOp.hostKernel 128 i b >>= BitExtractOp.kernel128 i) = .ok b) :=
  ⟨fun _ valid _ within => BitExtractOp.kernel_after_inject within valid,
    fun _ valid _ within => BitExtractOp.kernel_after_inject within valid⟩

/-- A bit injected at the sign position of a `u64` is read back. -/
theorem extract_after_inject_recovers_bits_at_sign_bit :
    (RingInjectOp.hostKernel 64 63 (ArrayD.fromElem [2] 1) >>= BitExtractOp.kernel64 63) =
      .ok (ArrayD.fromElem [2] 1) :=
  extract_after_inject_recovers_bits.1 _ ((FillOp.bitKernel_valid_iff _ _).2 (.inl (.inr rfl))) 63 (by decide)

end Tensor

end Moose.Host

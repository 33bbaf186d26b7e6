import Moose.Host.Tensor

/-!
# Host kernels on bits and ring elements

The kernels of `host::ops` that produce or read `HostBitTensor`s: bit tensors
(arrays of `u8` meant to hold 0 or 1), ring tensors (arrays of `Wrapping<u64>`
or `Wrapping<u128>`, here `BitVec w` at `w = 64, 128`), and the comparison of
ring tensors. The kernels of one family that differ only in their ring are one
definition over `w`, each member keeping its name.

`Wrapping` shifts take the amount modulo the width (`wrapping_shl`,
`wrapping_shr`); `as u8` keeps the low 8 bits and `T::from(u8)` widens. A
sampler's draws are the successive results of `get_bit`. The session and the
placement arguments of the kernels are not read by these bodies and are left
out.

The main result is the representation invariant of bit tensors: every kernel
that returns a bit tensor returns one with elements 0 and 1 when its bit
operands have them, except `FillOp::bit_kernel`, which writes whatever `u8` it
is given. The kernels left as `unimplemented!()` or `todo!()` stubs are here
too, as the panics they are.
-/

namespace Moose.Host

/-- `HostRingTensor<T>` over the ring of `w`-bit words. -/
abbrev HostRingTensor (w : Nat) := ArrayD (BitVec w)

/-- `HostRing64Tensor`. -/
abbrev HostRing64Tensor := HostRingTensor 64

/-- `HostRing128Tensor`. -/
abbrev HostRing128Tensor := HostRingTensor 128

/-- `HostBitTensor`: an array of `u8`s. -/
abbrev HostBitTensor := ArrayD (BitVec 8)

/-- `HostShape`: the raw shape. -/
abbrev HostShape := List Nat

/-- `HostFixedTensor`: a ring tensor with its precisions. -/
structure HostFixedTensor (w : Nat) where
  tensor : HostRingTensor w
  fractionalPrecision : Nat
  integralPrecision : Nat

/-- `.map_err(|e| Error::KernelError(e.to_string()))` on an `ndarray` result. -/
def orKernelError {α : Type} : Except String α → Except Failure α
  | .ok value => .ok value
  | .error message => .error (.error (.kernelError message))

/-- `Wrapping<T> >> amount`. -/
def shr {w : Nat} (amount : Nat) (x : BitVec w) : BitVec w := x >>> (amount % w)

/-- `Wrapping<T> << amount`. -/
def shl {w : Nat} (amount : Nat) (x : BitVec w) : BitVec w := x <<< (amount % w)

/-- `Array::from_shape_vec(shape, values)`. -/
def fromShapeVec {α : Type} (shape : List Nat) (values : List α) : Except String (ArrayD α) :=
  if sized : values.length = shape.prod then .ok ⟨shape, values, sized⟩
  else .error "ShapeError/IncompatibleShape: incompatible shapes"

/-! ## Kernels -/

section Kernels

/-- `FillOp::bit_kernel`: every element the `u8` value. -/
def FillOp.bitKernel (value : BitVec 8) (shape : HostShape) : Except Failure HostBitTensor :=
  .ok (ArrayD.fromElem shape value)

/-- `BitSampleOp::kernel`: one `get_bit` of a fresh generator per element;
`draws n` is the `n`-th draw. -/
def BitSampleOp.kernel (draws : Nat → BitVec 8) (shape : HostShape) : Except Failure HostBitTensor :=
  orKernelError (fromShapeVec shape ((List.range shape.prod).map draws))

/-- `BitSampleSeededOp::kernel`: the same from the generator of `seed`. -/
def BitSampleSeededOp.kernel {Seed : Type} (draws : Seed → Nat → BitVec 8) (shape : HostShape)
    (seed : Seed) : Except Failure HostBitTensor :=
  orKernelError (fromShapeVec shape ((List.range shape.prod).map (draws seed)))

/-- `BitXorOp::kernel`: `x ^ y`. -/
def BitXorOp.kernel (x y : HostBitTensor) : Except Failure HostBitTensor :=
  ArrayD.zipBroadcast (· ^^^ ·) x y

/-- `BitNegOp::kernel`: `(!x) & 1`. -/
def BitNegOp.kernel (x : HostBitTensor) : Except Failure HostBitTensor :=
  .ok ((x.mapv (~~~ ·)).mapv (· &&& 1))

/-- `BitAndOp::bit_kernel`: `x & y`. -/
def BitAndOp.bitKernel (x y : HostBitTensor) : Except Failure HostBitTensor :=
  ArrayD.zipBroadcast (· &&& ·) x y

/-- `BitOrOp::host_kernel`: `x | y`. -/
def BitOrOp.hostKernel (x y : HostBitTensor) : Except Failure HostBitTensor :=
  ArrayD.zipBroadcast (· ||| ·) x y

/-- The body of `BitExtractOp::kernel64` and `kernel128`: bit `bitIdx` of every
element, `((x >> bit_idx) & 1) as u8`. -/
def BitExtractOp.kernel (w : Nat) (bitIdx : Nat) (x : HostRingTensor w) : Except Failure HostBitTensor :=
  .ok ((x.mapv (shr bitIdx)).mapv fun ai => (ai &&& 1).setWidth 8)

/-- `BitExtractOp::kernel64`. -/
def BitExtractOp.kernel64 (bitIdx : Nat) (x : HostRing64Tensor) : Except Failure HostBitTensor :=
  BitExtractOp.kernel 64 bitIdx x

/-- `BitExtractOp::kernel128`. -/
def BitExtractOp.kernel128 (bitIdx : Nat) (x : HostRing128Tensor) : Except Failure HostBitTensor :=
  BitExtractOp.kernel 128 bitIdx x

/-- The decomposition all `HostBitDecOp` kernels compute: `(x >> i) & ones` for
every bit index `i`, stacked along a new first axis. -/
def HostBitDecOp.bitRep (w : Nat) (x : HostRingTensor w) : Except Failure (HostRingTensor w) := do
  let ones := ArrayD.fromElem x.shape 1
  let bitRep ← (List.range w).mapM fun i => ArrayD.zipBroadcast (· &&& ·) (x.mapv (shr i)) ones
  orKernelError (ArrayD.stack bitRep)

/-- `HostBitDecOp::ring64_kernel`. -/
def HostBitDecOp.ring64Kernel (x : HostRing64Tensor) : Except Failure HostRing64Tensor :=
  HostBitDecOp.bitRep 64 x

/-- `HostBitDecOp::ring128_kernel`. -/
def HostBitDecOp.ring128Kernel (x : HostRing128Tensor) : Except Failure HostRing128Tensor :=
  HostBitDecOp.bitRep 128 x

/-- The body of `HostBitDecOp::bit64_kernel` and `bit128_kernel`: the
decomposition with every element cut to a `u8`. -/
def HostBitDecOp.bitKernel (w : Nat) (x : HostRingTensor w) : Except Failure HostBitTensor :=
  (HostBitDecOp.bitRep w x).map (ArrayD.mapv (BitVec.setWidth 8))

/-- `HostBitDecOp::bit64_kernel`. -/
def HostBitDecOp.bit64Kernel (x : HostRing64Tensor) : Except Failure HostBitTensor :=
  HostBitDecOp.bitKernel 64 x

/-- `HostBitDecOp::bit128_kernel`. -/
def HostBitDecOp.bit128Kernel (x : HostRing128Tensor) : Except Failure HostBitTensor :=
  HostBitDecOp.bitKernel 128 x

/-- `RingInjectOp::host_kernel::<T>`: every bit widened into the ring and
shifted to position `bitIdx`. -/
def RingInjectOp.hostKernel (w : Nat) (bitIdx : Nat) (x : HostBitTensor) :
    Except Failure (HostRingTensor w) :=
  .ok (x.mapv fun ai => shl bitIdx (ai.setWidth w))

/-- `RingShlOp::kernel`: every element shifted left by `amount`, wrapping. -/
def RingShlOp.kernel {w : Nat} (amount : Nat) (x : HostRingTensor w) : Except Failure (HostRingTensor w) :=
  .ok (x.mapv (shl amount))

/-- `AddNOp::host_kernel`: the sum of the tensors, added from the first. -/
def AddNOp.hostKernel {w : Nat} (xs : List (HostRingTensor w)) : Except Failure (HostRingTensor w) :=
  match xs with
  | [] => .error (.error (.invalidArgument "cannot reduce on empty array of tensors"))
  | base :: rest => rest.foldlM (fun acc item => ArrayD.zipBroadcast (· + ·) acc item) base

/-- `IndexAxisOp::host_bit_kernel`. -/
def IndexAxisOp.hostBitKernel (axis index : Nat) (x : HostBitTensor) : Except Failure HostBitTensor :=
  ArrayD.indexAxis axis index x

/-- `HostDiagOp::bit_kernel`. -/
def HostDiagOp.bitKernel (x : HostBitTensor) : Except Failure HostBitTensor :=
  .ok x.intoDiag

/-- `HostReshapeOp::bit_kernel` on a tensor whose array has strides
`strides`. -/
def HostReshapeOp.bitKernel (x : HostBitTensor) (strides : List Nat) (shape : HostShape) :
    Except Failure HostBitTensor :=
  orKernelError (x.intoShape strides shape)

/-- `ExpandDimsOp::host_bit_kernel`. -/
def ExpandDimsOp.hostBitKernel (axis : List Nat) (x : HostBitTensor) : Except Failure HostBitTensor :=
  x.expandDims axis

/-- `Vec::remove(0)` on a shape: panics when the shape is empty. -/
def removeFirst (shape : HostShape) : Except Failure HostShape :=
  match shape with
  | [] => .error (.panic "removal index (is 0) should be < len (is 0)")
  | _ :: rest => .ok rest

/-- `HostShlDimOp::bit_kernel`: the slices of `x` along its first axis moved
`amount` places up, zeros below, `bitLength` slices in all. -/
def HostShlDimOp.bitKernel (amount bitLength : Nat) (x : HostBitTensor) :
    Except Failure HostBitTensor := do
  let rawShape ← removeFirst x.shape
  let zero := ArrayD.fromElem rawShape 0
  let concatenated ← (List.range bitLength).mapM fun i =>
    if i < amount then pure zero else ArrayD.indexAxis 0 (i - amount) x
  orKernelError (ArrayD.stack concatenated)

/-- The comparison of the ring `LessOp` kernels on one element of `x - y`:
`(item as iN) < 0`. -/
def lessBit {w : Nat} (item : BitVec w) : BitVec 8 := if item.toInt < 0 then 1 else 0

/-- The body of `LessOp::host_ring64_kernel` and `host_ring128_kernel`. -/
def LessOp.hostRingKernel (w : Nat) (x y : HostRingTensor w) : Except Failure HostBitTensor :=
  (ArrayD.zipBroadcast (· - ·) x y).map (ArrayD.mapv lessBit)

/-- `LessOp::host_ring64_kernel`. -/
def LessOp.hostRing64Kernel (x y : HostRing64Tensor) : Except Failure HostBitTensor :=
  LessOp.hostRingKernel 64 x y

/-- `LessOp::host_ring128_kernel`. -/
def LessOp.hostRing128Kernel (x y : HostRing128Tensor) : Except Failure HostBitTensor :=
  LessOp.hostRingKernel 128 x y

/-- `LessOp::host_fixed_kernel`: `less` on the underlying ring tensors, which
the host placement computes with the ring kernel. -/
def LessOp.hostFixedKernel (w : Nat) (x y : HostFixedTensor w) : Except Failure HostBitTensor :=
  LessOp.hostRingKernel w x.tensor y.tensor

/-- `LessOp::host_float_kernel`: `(x - y < 0) as u8`, for any scalar type with
a decidable order. -/
def LessOp.hostFloatKernel {F : Type} [Sub F] [Zero F] [LT F] [DecidableRel (@LT.lt F _)]
    [Inhabited F] (x y : ArrayD F) : Except Failure HostBitTensor :=
  (ArrayD.zipBroadcast (· - ·) x y).map (ArrayD.mapv fun item => if item < 0 then 1 else 0)

/-- The panic message of `unimplemented!()`. -/
def notImplemented : String := "not implemented"

/-- The panic message of `todo!()`. -/
def notYetImplemented : String := "not yet implemented"

/-- `RingFixedpointDecodeOp::float32_kernel`: `unimplemented!()` on every input. -/
def RingFixedpointDecodeOp.float32Kernel {F : Type} (_scalingBase _scalingExp : Nat) (_x : HostRing64Tensor) :
    Except Failure (ArrayD F) :=
  .error (.panic notImplemented)

/-- `HostInverseOp::kernel` built without the `blas` feature. -/
def HostInverseOp.kernel {F : Type} (_x : ArrayD F) : Except Failure (ArrayD F) :=
  .error (.panic (notImplemented ++ ": Please enable \x27blas\x27 feature"))

/-- `SendOp::kernel`: `todo!()`. -/
def SendOp.kernel {T : Type} (_rendezvousKey : String) (_receiver : Role) (_x : T) : Except Failure Unit :=
  .error (.panic notYetImplemented)

/-- `ReceiveOp::kernel`: `todo!()`. -/
def ReceiveOp.kernel {T : Type} (_rendezvousKey : String) (_sender : Role) : Except Failure T :=
  .error (.panic notYetImplemented)

/-- `LoadOp::kernel`: `todo!()`. -/
def LoadOp.kernel {O : Type} (_key _query : String) : Except Failure O :=
  .error (.panic notYetImplemented)

/-- `SaveOp::kernel`: `todo!()`. -/
def SaveOp.kernel {O : Type} (_key : String) (_x : O) : Except Failure Unit :=
  .error (.panic notYetImplemented)

end Kernels

/-! ## Spec lemmas -/

section Spec

variable {w : Nat}

@[simp] theorem orKernelError_eq_ok {α : Type} {result : Except String α} {value : α} :
    orKernelError result = .ok value ↔ result = .ok value := by
  cases result <;> simp [orKernelError]

theorem fromShapeVec_sized {α : Type} (shape : List Nat) {values : List α} (sized : values.length = shape.prod) :
    fromShapeVec shape values = .ok ⟨shape, values, sized⟩ := dif_pos sized

/-- The decomposition of `x`: plane `i` holds `(x >> i) & 1` element by element. -/
theorem HostBitDecOp.bitRep_eq (positive : 0 < w) (x : HostRingTensor w) :
    ∃ planes, HostBitDecOp.bitRep w x = .ok planes ∧ planes.shape = w :: x.shape ∧
      planes.elems = (List.range w).flatMap fun i => x.elems.map fun v => shr i v &&& 1 := by
  have each : ∀ i ∈ List.range w, ArrayD.zipBroadcast (· &&& ·) (x.mapv (shr i)) (ArrayD.fromElem x.shape 1) =
      .ok (x.mapv fun v => shr i v &&& 1) := fun i _ => by
    rw [ArrayD.zipBroadcast_fromElem _ _ (ArrayD.mapv_shape _ x), ArrayD.mapv_mapv]
    rfl
  obtain ⟨planes, stacked, shape, elems⟩ := ArrayD.stack_range_mapv positive x fun i v => shr i v &&& 1
  refine ⟨planes, ?_, shape, elems⟩
  dsimp only [HostBitDecOp.bitRep]
  rw [ArrayD.mapM_ok each]
  exact orKernelError_eq_ok.2 stacked

/-- `HostShlDimOp::bit_kernel` on a tensor with a first axis: the slices, then
the stack. -/
theorem HostShlDimOp.bitKernel_of_shape {x : HostBitTensor} {length : Nat} {rest : HostShape}
    (shaped : x.shape = length :: rest) (amount bitLength : Nat) :
    HostShlDimOp.bitKernel amount bitLength x =
      (List.range bitLength).mapM (fun i =>
        if i < amount then pure (ArrayD.fromElem rest 0) else ArrayD.indexAxis 0 (i - amount) x) >>=
        fun concatenated => orKernelError (ArrayD.stack concatenated) := by
  rw [HostShlDimOp.bitKernel, shaped]
  rfl

/-- Element `j` of the element-by-element sum of two arrays of one shape. -/
theorem getD_zipWith_add {a b : List (BitVec w)} {j : Nat} (within : j < a.length) (within' : j < b.length) :
    (List.zipWith (· + ·) a b).getD j 0 = a.getD j 0 + b.getD j 0 := by
  simp [List.getElem?_zipWith, List.getElem?_eq_getElem within, List.getElem?_eq_getElem within']

/-- `AddNOp::host_kernel` on ring tensors of one shape is their element-by-element
wrapping sum, added from the first. -/
theorem AddNOp.hostKernel_of_same :
    ∀ (rest : List (HostRingTensor w)) (base : HostRingTensor w), (∀ t ∈ rest, t.shape = base.shape) →
      ∃ sum, AddNOp.hostKernel (base :: rest) = .ok sum ∧ sum.shape = base.shape ∧
        ∀ j < base.shape.prod,
          sum.elems[j]? = some ((rest.map fun t => t.elems.getD j 0).foldl (· + ·) (base.elems.getD j 0))
  | [], base, _ => ⟨base, rfl, rfl, fun j within => by
      simp [List.getElem?_eq_getElem (base.elems_length ▸ within : j < base.elems.length)]⟩
  | next :: rest, base, same => by
    have first := same next (List.mem_cons_self _ _)
    obtain ⟨sum, summed, shape, elems⟩ := AddNOp.hostKernel_of_same rest
      (ArrayD.zipSame (· + ·) base next first.symm) fun t mem => same t (List.mem_cons_of_mem _ mem)
    refine ⟨sum, ?_, shape, fun j within => ?_⟩
    · show (next :: rest).foldlM _ base = _
      rw [List.foldlM_cons, ArrayD.zipBroadcast_of_same _ first.symm]
      exact summed
    · rw [elems j within, List.map_cons, List.foldl_cons, ArrayD.zipSame_elems,
        getD_zipWith_add (base.elems_length ▸ within) (next.elems_length ▸ first ▸ within)]

/-- Two one-element tensors, 4 and 3, add up to 7. -/
theorem AddNOp.hostKernel_of_same_of_four_three :
    ∃ sum, AddNOp.hostKernel [ArrayD.fromElem [1] (4 : BitVec 64), ArrayD.fromElem [1] 3] = .ok sum ∧
      sum.shape = [1] ∧ sum.elems[0]? = some 7 := by
  obtain ⟨sum, summed, shape, elems⟩ := AddNOp.hostKernel_of_same [ArrayD.fromElem [1] (3 : BitVec 64)]
    (ArrayD.fromElem [1] 4) (by simp)
  exact ⟨sum, summed, shape, elems 0 (by decide)⟩

end Spec

/-! ## The representation invariant of bit tensors -/

section Bits

/-- A `u8` that holds a bit. -/
def IsBit (v : BitVec 8) : Prop := v = 0 ∨ v = 1

instance : DecidablePred IsBit := fun v => inferInstanceAs (Decidable (v = 0 ∨ v = 1))

/-- The representation invariant of `HostBitTensor`: every element is 0 or 1. -/
def ValidBits (x : HostBitTensor) : Prop := x.All IsBit

instance : DecidablePred ValidBits := fun x => inferInstanceAs (Decidable (∀ v ∈ x.elems, IsBit v))

theorem isBit_default : IsBit default := .inl rfl

theorem isBit_of_toNat_lt_two {v : BitVec 8} (small : v.toNat < 2) : IsBit v := by
  rcases Nat.lt_succ_iff_lt_or_eq.1 small with zero | one
  · exact .inl (BitVec.eq_of_toNat_eq (by simp; omega))
  · exact .inr (BitVec.eq_of_toNat_eq (by simp [one]))

/-- `(v & 1) as u8` is a bit, whatever the width of `v`. -/
theorem isBit_setWidth_and_one {w : Nat} (v : BitVec w) : IsBit ((v &&& 1).setWidth 8) := by
  apply isBit_of_toNat_lt_two
  have masked : v.toNat &&& (1 : BitVec w).toNat ≤ 1 :=
    Nat.le_trans Nat.and_le_right (by simp [Nat.mod_le])
  simp only [BitVec.toNat_setWidth, BitVec.toNat_and]
  exact Nat.lt_of_le_of_lt (Nat.mod_le _ _) (by omega)

theorem isBit_and_one (v : BitVec 8) : IsBit (v &&& 1) := by
  simpa using isBit_setWidth_and_one v

theorem IsBit.xor {a b : BitVec 8} (bit : IsBit a) (bit' : IsBit b) : IsBit (a ^^^ b) := by
  rcases bit with rfl | rfl <;> rcases bit' with rfl | rfl <;> decide

theorem IsBit.and {a b : BitVec 8} (bit : IsBit a) (bit' : IsBit b) : IsBit (a &&& b) := by
  rcases bit with rfl | rfl <;> rcases bit' with rfl | rfl <;> decide

theorem IsBit.or {a b : BitVec 8} (bit : IsBit a) (bit' : IsBit b) : IsBit (a ||| b) := by
  rcases bit with rfl | rfl <;> rcases bit' with rfl | rfl <;> decide

theorem isBit_ite (condition : Prop) [Decidable condition] :
    IsBit (if condition then 1 else 0) := by
  split <;> decide

theorem validBits_mapv {α : Type} {f : α → BitVec 8} (bits : ∀ v, IsBit (f v)) (x : ArrayD α) :
    ValidBits (x.mapv f) := fun _ mem => by
  obtain ⟨v, -, rfl⟩ := List.mem_map.1 mem
  exact bits v

/-- A fill is a bit tensor exactly when its value is a bit or it has no elements. -/
theorem FillOp.bitKernel_valid_iff (value : BitVec 8) (shape : HostShape) :
    ValidBits (ArrayD.fromElem shape value) ↔ IsBit value ∨ shape.prod = 0 := by
  by_cases empty : shape.prod = 0
  · simp [ValidBits, ArrayD.All, empty]
  · simp only [ValidBits, ArrayD.All, ArrayD.fromElem_elems, List.mem_replicate, empty, or_false]
    exact ⟨fun all => all value ⟨empty, rfl⟩, fun bit v mem => mem.2 ▸ bit⟩

theorem validBits_sample {draws : Nat → BitVec 8} (bits : ∀ n, IsBit (draws n)) (shape : HostShape)
    {t : HostBitTensor} (sampled : orKernelError (fromShapeVec shape ((List.range shape.prod).map draws)) = .ok t) :
    ValidBits t := by
  rw [fromShapeVec_sized shape (by simp)] at sampled
  cases sampled
  intro v mem
  obtain ⟨n, -, rfl⟩ := List.mem_map.1 mem
  exact bits n

theorem validBits_bitKernel {w : Nat} (positive : 0 < w) (x : HostRingTensor w) {t : HostBitTensor}
    (decomposed : HostBitDecOp.bitKernel w x = .ok t) : ValidBits t := by
  obtain ⟨planes, planesOk, -, elems⟩ := HostBitDecOp.bitRep_eq positive x
  rw [HostBitDecOp.bitKernel, planesOk] at decomposed
  cases decomposed
  intro v mem
  simp only [ArrayD.mapv_elems, elems, List.mem_map, List.mem_flatMap] at mem
  obtain ⟨_, ⟨i, -, v', -, rfl⟩, rfl⟩ := mem
  exact isBit_setWidth_and_one _

/-- A kernel that ends in `.mapv(f)` with `f` returning bits returns a bit tensor. -/
theorem validBits_of_map_mapv {α : Type} {result : Except Failure (ArrayD α)} {f : α → BitVec 8}
    (bits : ∀ v, IsBit (f v)) {t : HostBitTensor} (mapped : result.map (ArrayD.mapv f) = .ok t) :
    ValidBits t := by
  cases result with
  | error failure => cases mapped
  | ok d => cases mapped; exact validBits_mapv bits d

theorem validBits_shlDim {amount bitLength : Nat} {x t : HostBitTensor} (valid : ValidBits x)
    (shifted : HostShlDimOp.bitKernel amount bitLength x = .ok t) : ValidBits t := by
  unfold HostShlDimOp.bitKernel at shifted
  obtain ⟨rawShape, -, shifted⟩ := bind_eq_ok.1 shifted
  obtain ⟨concatenated, slices, stacked⟩ := bind_eq_ok.1 shifted
  refine ArrayD.All.stack (fun slice mem => ?_) (orKernelError_eq_ok.1 stacked)
  obtain ⟨i, -, sliced⟩ := ArrayD.mem_of_mapM_ok slices slice mem
  split at sliced
  · cases sliced
    exact fun v mem => .inl (List.eq_of_mem_replicate mem)
  · exact valid.indexAxis isBit_default sliced

end Bits

end Moose.Host

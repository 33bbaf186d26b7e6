import Moose.Host.Broadcast
import Moose.Host.Comparison

/-!
# Host kernels on ring tensors

The kernels of `host::ops` that compute on ring tensors: `RingAddOp`,
`RingSubOp`, `RingNegOp`, `RingMulOp`, `HostDivOp::ring_kernel`,
`BitAndOp::ring_kernel`, `RingShrOp`, `RingFillOp`, `SignOp` and
`GreaterThanOp`, and the shape kernels `ShapeOp`, `BroadcastOp` and
`HostReshapeOp` on ring tensors. The binary kernels are the
wrapping arithmetic of `ndarray`, broadcasting included.

On tensors of all shapes, broadcasting and its panic included, the sum and the
product are commutative and associative, the product distributes over the
sum, a difference is the sum with the negation, and negating twice changes
nothing. `AddNOp::host_kernel` is the sum of its tensors' broadcast reads over
the co-broadcast of their shapes, in whatever order they come. The implicit
broadcast of an arithmetic kernel is `BroadcastOp` to the co-broadcast shape
followed by the kernel on equal shapes. `GreaterThanOp::host_kernel` is the
sign of `y - x`: the ring's `-1` where `x > y` and `1` elsewhere, for elements
within half the signed range. `HostDivOp::ring_kernel` panics exactly where a
divisor it reads is zero and otherwise divides unsigned.
-/

namespace Moose.Host

/-! ## Kernels -/

section Kernels

variable {w : Nat}

/-- `RingAddOp::kernel`: `x + y`, wrapping. -/
def RingAddOp.kernel (x y : HostRingTensor w) : Except Failure (HostRingTensor w) :=
  ArrayD.zipBroadcast (· + ·) x y

/-- `RingSubOp::kernel`: `x - y`, wrapping. -/
def RingSubOp.kernel (x y : HostRingTensor w) : Except Failure (HostRingTensor w) :=
  ArrayD.zipBroadcast (· - ·) x y

/-- `RingNegOp::kernel`: `-x`, wrapping. -/
def RingNegOp.kernel (x : HostRingTensor w) : Except Failure (HostRingTensor w) :=
  .ok (x.mapv (- ·))

/-- `RingMulOp::kernel`: `x * y`, wrapping. -/
def RingMulOp.kernel (x y : HostRingTensor w) : Except Failure (HostRingTensor w) :=
  ArrayD.zipBroadcast (· * ·) x y

/-- The panic of `Wrapping<T> / Wrapping<T>` on a zero divisor. -/
def divideByZero : String := "attempt to divide by zero"

/-- `Wrapping<T> / Wrapping<T>` on unsigned elements: the quotient, or `none`
where the division panics. -/
def checkedDiv (a b : BitVec w) : Option (BitVec w) := if b = 0 then none else some (a / b)

/-- `HostDivOp::ring_kernel`: `x / y`. The shapes broadcast before any element
is divided, and a zero divisor anywhere panics. -/
def HostDivOp.ringKernel (x y : HostRingTensor w) : Except Failure (HostRingTensor w) := do
  let quotients ← ArrayD.zipBroadcast (fun a b => a.bind fun a => b.bind (checkedDiv a)) (x.mapv some) (y.mapv some)
  if none ∈ quotients.elems then .error (.panic divideByZero) else .ok (quotients.mapv (·.getD 0))

/-- `BitAndOp::ring_kernel`: `x & y`. -/
def BitAndOp.ringKernel (x y : HostRingTensor w) : Except Failure (HostRingTensor w) :=
  ArrayD.zipBroadcast (· &&& ·) x y

/-- `RingShrOp::kernel`: every element shifted right by `amount`, wrapping
the amount. -/
def RingShrOp.kernel (amount : Nat) (x : HostRingTensor w) : Except Failure (HostRingTensor w) :=
  .ok (x.mapv (shr amount))

/-- The body of `RingFillOp::ring64_kernel` and `ring128_kernel`: every
element the value. -/
def RingFillOp.ringKernel (w : Nat) (value : BitVec w) (shape : HostShape) : Except Failure (HostRingTensor w) :=
  .ok (ArrayD.fromElem shape value)

/-- `RingFillOp::ring64_kernel`. -/
def RingFillOp.ring64Kernel (value : BitVec 64) (shape : HostShape) : Except Failure HostRing64Tensor :=
  RingFillOp.ringKernel 64 value shape

/-- `RingFillOp::ring128_kernel`. -/
def RingFillOp.ring128Kernel (value : BitVec 128) (shape : HostShape) : Except Failure HostRing128Tensor :=
  RingFillOp.ringKernel 128 value shape

/-- The sign `SignOp` gives one element: `-1 as uN` when `(item as iN) < 0`,
and 1 otherwise. -/
def signOf (item : BitVec w) : BitVec w := if item.toInt < 0 then -1 else 1

/-- The body of `SignOp::ring64_kernel` and `ring128_kernel`. -/
def SignOp.ringKernel (w : Nat) (x : HostRingTensor w) : Except Failure (HostRingTensor w) :=
  .ok (x.mapv signOf)

/-- `SignOp::ring64_kernel`. -/
def SignOp.ring64Kernel (x : HostRing64Tensor) : Except Failure HostRing64Tensor :=
  SignOp.ringKernel 64 x

/-- `SignOp::ring128_kernel`. -/
def SignOp.ring128Kernel (x : HostRing128Tensor) : Except Failure HostRing128Tensor :=
  SignOp.ringKernel 128 x

/-- `ShapeOp::ring_kernel`: the tensor's shape. -/
def ShapeOp.ringKernel (x : HostRingTensor w) : Except Failure HostShape :=
  .ok x.shape

/-- The panic of `Option::unwrap` on `None`. -/
def unwrapNone : String := "called `Option::unwrap()` on a `None` value"

/-- `BroadcastOp::host_ring_kernel`: `x.broadcast(s).unwrap().to_owned()`. -/
def BroadcastOp.hostRingKernel (s : HostShape) (x : HostRingTensor w) : Except Failure (HostRingTensor w) :=
  match x.broadcast s with
  | none => .error (.panic unwrapNone)
  | some y => .ok y

/-- `HostReshapeOp::ring_kernel` on a tensor whose array has strides
`strides`: `into_shape`, its `ShapeError` a `KernelError`. -/
def HostReshapeOp.ringKernel (x : HostRingTensor w) (strides : List Nat) (shape : HostShape) :
    Except Failure (HostRingTensor w) :=
  orKernelError (x.intoShape strides shape)

/-- `GreaterThanOp::host_kernel`: `sign(y - x)`, with the host placement's
`sub` and `sign` given by the kernels they dispatch to. -/
def GreaterThanOp.hostKernel {T : Type} (sub : T → T → Except Failure T) (sign : T → Except Failure T)
    (x y : T) : Except Failure T := do
  let z ← sub y x
  sign z

/-- Modelled from the spec: `GreaterThanOp::host_kernel` on ring tensors, where
the kernel table dispatches the placement's `sub` to `RingSubOp::kernel` and
its `sign` to `SignOp`'s ring kernel of the width. -/
def GreaterThanOp.hostRingKernel (w : Nat) (x y : HostRingTensor w) : Except Failure (HostRingTensor w) :=
  GreaterThanOp.hostKernel RingSubOp.kernel (SignOp.ringKernel w) x y

end Kernels

open ArrayD

section Laws

variable {w : Nat}

theorem tabulates_ringNeg (x : HostRingTensor w) :
    Tabulates (RingNegOp.kernel x) (some x.shape) fun index => -x.broadcastAt index :=
  (Tabulates.of_array x).mapv (- ·)

/-- A fill of `value` on a shape that stretches to `x`'s, combined with `x` by
an operation of which `value` is a right identity, gives `x` back. -/
theorem zipBroadcast_fromElem_of_identity {f : BitVec w → BitVec w → BitVec w} {value : BitVec w}
    (identity : ∀ a, f a value = a) {shape : HostShape} {x : HostRingTensor w} (stretched : Stretches shape x.shape) :
    (do let filled ← RingFillOp.ringKernel w value shape; zipBroadcast f x filled) = .ok x :=
  ((Tabulates.of_array x).zip f (.of_fromElem shape value)).eq (.of_array x)
    ((coBroadcast_comm _ _).trans (coBroadcast_of_stretches stretched)) fun _ _ _ _ => identity _

/-- The ring kernels on tensors of all shapes, broadcasting and its panic
included: the sum and the product are commutative and associative, the
product distributes over the sum, a difference is the sum with the negation,
negating twice gives the tensor back, and fills of zero and one on any shape
that stretches to a tensor's are identities of the sum and the product. -/
theorem ring_kernels_obey_ring_laws (x y z : HostRingTensor w) :
    RingAddOp.kernel x y = RingAddOp.kernel y x ∧
    (do let xy ← RingAddOp.kernel x y; RingAddOp.kernel xy z) =
      (do let yz ← RingAddOp.kernel y z; RingAddOp.kernel x yz) ∧
    RingMulOp.kernel x y = RingMulOp.kernel y x ∧
    (do let xy ← RingMulOp.kernel x y; RingMulOp.kernel xy z) =
      (do let yz ← RingMulOp.kernel y z; RingMulOp.kernel x yz) ∧
    (do let yz ← RingAddOp.kernel y z; RingMulOp.kernel x yz) =
      (do let xy ← RingMulOp.kernel x y; let xz ← RingMulOp.kernel x z; RingAddOp.kernel xy xz) ∧
    RingSubOp.kernel x y = (do let negated ← RingNegOp.kernel y; RingAddOp.kernel x negated) ∧
    (do let negated ← RingNegOp.kernel x; RingNegOp.kernel negated) = .ok x ∧
    ∀ shape, Stretches shape x.shape →
      (do let zeros ← RingFillOp.ringKernel w 0 shape; RingAddOp.kernel x zeros) = .ok x ∧
      (do let ones ← RingFillOp.ringKernel w 1 shape; RingMulOp.kernel x ones) = .ok x := by
  refine ⟨zipBroadcast_comm add_comm x y, zipBroadcast_assoc add_assoc x y z, zipBroadcast_comm mul_comm x y,
    zipBroadcast_assoc mul_assoc x y z, ?distributes, ?subtracts, ?negates,
    fun shape stretched => ⟨zipBroadcast_fromElem_of_identity add_zero stretched,
      zipBroadcast_fromElem_of_identity mul_one stretched⟩⟩
  case distributes =>
    refine ((Tabulates.of_array x).zip _ (tabulates_zipBroadcast _ y z)).eq
      ((tabulates_zipBroadcast _ x y).zip _ (tabulates_zipBroadcast _ x z)) ?_ fun _ _ _ _ => mul_add _ _ _
    refine eq_of_stretches_iff fun _ => ?_
    simp only [bind_coBroadcast_stretches_iff, exists_mem_some_stretches_iff, exists_mem_coBroadcast_stretches_iff]
    exact ⟨fun ⟨first, second, third⟩ => ⟨⟨first, second⟩, first, third⟩,
      fun ⟨⟨first, second⟩, _, third⟩ => ⟨first, second, third⟩⟩
  case subtracts =>
    exact (tabulates_zipBroadcast _ x y).eq ((Tabulates.of_array x).zip _ (tabulates_ringNeg y)) rfl
      fun _ _ _ _ => sub_eq_add_neg _ _
  case negates =>
    exact congrArg Except.ok ((mapv_mapv _ _ x).trans (mapv_eq_self fun v _ => neg_neg v))

end Laws

/-! ## `AddNOp` on all shapes -/

section AddN

variable {w : Nat}

/-- Summing from a first element does not depend on the order of the
elements. -/
theorem foldl_add_eq_of_perm {M : Type} [AddCommMonoid M] {a b : M} {l l' : List M}
    (perm : (a :: l).Perm (b :: l')) : l.foldl (· + ·) a = l'.foldl (· + ·) b := by
  simpa only [List.foldl_cons, zero_add] using perm.foldl_eq' (fun _ _ _ _ z => add_right_comm z _ _) 0

theorem AddNOp.hostKernel_tabulates (first : HostRingTensor w) (rest : List (HostRingTensor w)) :
    Tabulates (AddNOp.hostKernel (first :: rest)) ((rest.map ArrayD.shape).foldlM coBroadcast first.shape)
      fun index => (rest.map (·.broadcastAt index)).foldl (· + ·) (first.broadcastAt index) := by
  have tabulates := Tabulates.foldlM (· + ·) rest first.shape first.broadcastAt (readsThrough_broadcastAt (.refl _))
  rwa [tabulate_broadcastAt] at tabulates

end AddN

/-! ## `BroadcastOp` and the implicit broadcast of the binary kernels -/

section Broadcasting

variable {w : Nat}

theorem BroadcastOp.hostRingKernel_eq (shape : HostShape) (x : HostRingTensor w) :
    BroadcastOp.hostRingKernel shape x =
      if Stretches x.shape shape then .ok (tabulate shape x.broadcastAt) else .error (.panic unwrapNone) := by
  split
  · rename_i stretched
    rw [BroadcastOp.hostRingKernel, broadcast_of_stretches stretched]
  · rename_i apart
    rw [BroadcastOp.hostRingKernel, broadcast_eq_none apart]

/-- A binary kernel of `ndarray`'s arithmetic is the same as broadcasting both
operands explicitly to the co-broadcast of their shapes and applying the
kernel there. -/
theorem zipBroadcast_eq_explicit (f : BitVec w → BitVec w → BitVec w) (x y : HostRingTensor w) :
    zipBroadcast f x y = match coBroadcast x.shape y.shape with
      | none => .error (.panic broadcastFailed)
      | some shape => (do
        let x' ← BroadcastOp.hostRingKernel shape x
        let y' ← BroadcastOp.hostRingKernel shape y
        zipBroadcast f x' y') := by
  rw [(tabulates_zipBroadcast f x y).1]
  cases found : coBroadcast x.shape y.shape with
  | none => rfl
  | some shape =>
    obtain ⟨stretched, stretched'⟩ := coBroadcast_stretches found
    simp only [BroadcastOp.hostRingKernel_eq, stretched, stretched', if_true]
    have explicit := (Tabulates.of_tabulate (readsThrough_broadcastAt stretched)).zip_ok f
      (.of_tabulate (readsThrough_broadcastAt stretched'))
    rw [coBroadcast_self] at explicit
    exact explicit.1.symm

end Broadcasting

/-! ## The top bit -/

section TopBit

variable {w : Nat}

/-- The top bit of an element shifted down to bit 0: 1 for an element that is
negative as a signed integer, 0 otherwise. -/
theorem shr_last (v : BitVec w) : shr (w - 1) v = if v.toInt < 0 then 1 else 0 := by
  cases w with
  | zero =>
    obtain rfl := BitVec.eq_nil v
    decide
  | succ n =>
    apply BitVec.eq_of_toNat_eq
    have double : 2 ^ (n + 1) = 2 * 2 ^ n := Nat.pow_succ'
    have one : (1 : BitVec (n + 1)).toNat = 1 := Nat.mod_eq_of_lt (Nat.one_lt_two_pow (by omega))
    have zero : (0 : BitVec (n + 1)).toNat = 0 := by simp
    have below := (Nat.div_lt_iff_lt_mul (Nat.two_pow_pos n)).2 (show v.toNat < 2 * 2 ^ n by omega)
    have above := Nat.le_div_iff_mul_le (x := 1) (y := v.toNat) (Nat.two_pow_pos n)
    have negative := BitVec.toInt_neg_iff (x := v)
    simp only [shr, Nat.add_sub_cancel, Nat.mod_eq_of_lt (Nat.lt_succ_self n), BitVec.toNat_ushiftRight,
      Nat.shiftRight_eq_div_pow]
    generalize v.toNat / 2 ^ n = q at below above ⊢
    split_ifs <;> simp only [one, zero] <;> omega

/-- `LessOp`'s bit for a difference is bit `w - 1` of it, as `BitExtractOp`
cuts it. -/
theorem lessBit_eq_extract (v : BitVec w) : lessBit v = (shr (w - 1) v &&& 1).setWidth 8 := by
  rw [shr_last, lessBit]
  split_ifs with negative
  · have positive : 0 < w := by
      rcases w with _ | _
      · obtain rfl := BitVec.eq_nil v
        exact absurd negative (by decide)
      · omega
    apply BitVec.eq_of_toNat_eq
    simp [Nat.mod_eq_of_lt (Nat.one_lt_two_pow (Nat.pos_iff_ne_zero.1 positive))]
  · simp

/-- `SignOp`'s sign of an element is `1 - 2 * msb`. -/
theorem signOf_eq_shr (v : BitVec w) : signOf v = 1 - 2 * shr (w - 1) v := by
  rw [shr_last, signOf]
  split_ifs <;> ring

/-- The ring kernels read signs off the top bit. `LessOp`'s ring kernel is
`BitExtractOp` at bit `w - 1` of `RingSubOp`, the sign bit of the two's
complement difference, on all shapes and in its panics; `SignOp`'s ring kernel
is `1 - 2 * (x >> (w - 1))`, computed by `RingShrOp`, `RingMulOp` and
`RingSubOp` with the constants filled on a shape without axes and broadcast. -/
theorem ring_kernels_read_sign_from_top_bit (x y : HostRingTensor w) :
    LessOp.hostRingKernel w x y = (do let z ← RingSubOp.kernel x y; BitExtractOp.kernel w (w - 1) z) ∧
    SignOp.ringKernel w x = (do
      let msb ← RingShrOp.kernel (w - 1) x
      let one ← RingFillOp.ringKernel w 1 []
      let two ← RingFillOp.ringKernel w 2 []
      let doubled ← RingMulOp.kernel two msb
      RingSubOp.kernel one doubled) := by
  refine ⟨?less, ?sign⟩
  case less =>
    show (zipBroadcast (· - ·) x y).map (mapv lessBit) = zipBroadcast (· - ·) x y >>= fun z => .ok _
    cases zipBroadcast (· - ·) x y with
    | error => rfl
    | ok z => exact congrArg Except.ok (by rw [mapv_mapv]; exact congrArg z.mapv (funext lessBit_eq_extract))
  case sign =>
    have msb := (Tabulates.of_array x).mapv (shr (w - 1))
    exact ((Tabulates.of_array x).mapv signOf).eq ((Tabulates.of_fromElem [] 1).zip (· - ·)
      ((Tabulates.of_fromElem [] 2).zip (· * ·) msb)) (by simp) fun _ _ _ _ => signOf_eq_shr _

end TopBit

/-! ## `GreaterThanOp` as the sign of a difference -/

section Greater

variable {w : Nat}

theorem signOf_eq_lessBit (item : BitVec w) : signOf item = if lessBit item = 1 then -1 else 1 := by
  unfold signOf lessBit
  by_cases negative : item.toInt < 0
  · rw [if_pos negative, if_pos negative, if_pos rfl]
  · rw [if_neg negative, if_neg negative, if_neg (by decide)]

/-- The sign of a wrapping difference: `-1` where signed order and the fit of
the signed difference agree. -/
theorem signOf_sub (a b : BitVec w) :
    signOf (a - b) = if (a.toInt < b.toInt ↔ SubFits a b) then -1 else 1 := by
  simp only [signOf, toInt_sub_neg_iff]

theorem signOf_sub_of_bounded (wide : 2 ≤ w) {a b : BitVec w}
    (bounded : -2 ^ (w - 2) ≤ a.toInt ∧ a.toInt < 2 ^ (w - 2))
    (bounded' : -2 ^ (w - 2) ≤ b.toInt ∧ b.toInt < 2 ^ (w - 2)) :
    signOf (a - b) = if a.toInt < b.toInt then -1 else 1 := by
  rw [signOf_eq_lessBit, lessBit_sub_of_bounded wide bounded bounded']
  by_cases lt : a.toInt < b.toInt
  · rw [if_pos lt, if_pos rfl, if_pos lt]
  · rw [if_neg lt, if_neg (by decide), if_neg lt]

theorem GreaterThanOp.hostRingKernel_tabulates (x y : HostRingTensor w) :
    Tabulates (GreaterThanOp.hostRingKernel w x y) (coBroadcast x.shape y.shape)
      fun index => signOf (y.broadcastAt index - x.broadcastAt index) := by
  rw [coBroadcast_comm]
  exact (tabulates_zipBroadcast _ y x).mapv signOf

end Greater

section Division

variable {w : Nat}

@[simp] theorem checkedDiv_eq_none {a b : BitVec w} : checkedDiv a b = none ↔ b = 0 := by
  unfold checkedDiv
  split_ifs <;> simp_all

theorem checkedDiv_of_ne {a b : BitVec w} (nonzero : b ≠ 0) : checkedDiv a b = some (a / b) := if_neg nonzero

end Division

end Moose.Host

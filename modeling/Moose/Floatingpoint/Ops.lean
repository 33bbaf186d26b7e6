import Moose.Host.Ops

/-!
# Floating-point kernels on host placements

`floatingpoint::ops`: the kernels of the `FloatTensor` operations placed on a
host. Each unwraps its operands, applies the host placement's own operation
(`plc.add`, `plc.sigmoid`, ...) and returns the result on the host. The host
operations are parameters here: their bodies are kernels of other modules, and
the session and the placement are not read beyond them.

A `Mirrored3` operand is where the kernels part ways. Most match it with
`unimplemented!()`, a panic; some return `Err(UnimplementedOperator)`; the
identity and the mux read it back onto the host with `demirror`. The kernels
that differ only in the host operation they apply are instances of one kernel
shape, each keeping its own name and its own way of meeting `Mirrored3`.
-/

namespace Moose.Floatingpoint

open Moose.Host (notImplemented)

/-- `FloatTensor<HostFloatT, MirroredT>`. -/
inductive FloatTensor (H M : Type) where
  | host (value : H)
  | mirrored3 (value : M)
  deriving DecidableEq, Repr

/-- `BoolTensor<HostBitT, RepBitT>`. -/
inductive BoolTensor (H R : Type) where
  | host (value : H)
  | replicated (value : R)
  deriving DecidableEq, Repr

/-- What a kernel's `match` does with a `Mirrored3` operand. -/
inductive OnMirrored where
  /-- `FloatTensor::Mirrored3(_v) => unimplemented!()`. -/
  | unimplemented
  /-- `FloatTensor::Mirrored3(_v) => return Err(Error::UnimplementedOperator(message))`. -/
  | unsupported (message : String)
  deriving DecidableEq, Repr

/-- How a kernel ends on a `Mirrored3` operand. -/
def OnMirrored.failure : OnMirrored → Failure
  | .unimplemented => .panic notImplemented
  | .unsupported message => .error (.unimplementedOperator message)

/-! ## Kernel shapes -/

section Shapes

variable {H M R : Type}

/-- The `match` that unwraps a host operand. -/
def hostOperand (onMirrored : OnMirrored) : FloatTensor H M → Except Failure H
  | .host v => .ok v
  | .mirrored3 _ => .error onMirrored.failure

/-- The one-operand kernels: unwrap the operand, apply the host operation. -/
def unaryKernel (onMirrored : OnMirrored) (op : H → R) (x : FloatTensor H M) : Except Failure R := do
  let v ← hostOperand onMirrored x
  pure (op v)

/-- The two-operand kernels: unwrap `x`, then `y`, apply the host operation. -/
def binaryKernel (onMirrored : OnMirrored) (op : H → H → R) (x y : FloatTensor H M) :
    Except Failure R := do
  let v ← hostOperand onMirrored x
  let w ← hostOperand onMirrored y
  pure (op v w)

@[simp] theorem hostOperand_host (onMirrored : OnMirrored) (v : H) :
    hostOperand onMirrored (FloatTensor.host v : FloatTensor H M) = .ok v := rfl

@[simp] theorem hostOperand_mirrored3 (onMirrored : OnMirrored) (m : M) :
    hostOperand onMirrored (FloatTensor.mirrored3 m : FloatTensor H M) = .error onMirrored.failure := rfl

@[simp] theorem unaryKernel_host (onMirrored : OnMirrored) (op : H → R) (v : H) :
    unaryKernel onMirrored op (FloatTensor.host v : FloatTensor H M) = .ok (op v) := rfl

@[simp] theorem unaryKernel_mirrored3 (onMirrored : OnMirrored) (op : H → R) (m : M) :
    unaryKernel onMirrored op (FloatTensor.mirrored3 m : FloatTensor H M) = .error onMirrored.failure := rfl

@[simp] theorem binaryKernel_host_host (onMirrored : OnMirrored) (op : H → H → R) (v w : H) :
    binaryKernel onMirrored op (FloatTensor.host v : FloatTensor H M) (.host w) = .ok (op v w) := rfl

@[simp] theorem binaryKernel_mirrored3_left (onMirrored : OnMirrored) (op : H → H → R) (m : M)
    (y : FloatTensor H M) : binaryKernel onMirrored op (.mirrored3 m) y = .error onMirrored.failure := rfl

@[simp] theorem binaryKernel_mirrored3_right (onMirrored : OnMirrored) (op : H → H → R) (v : H) (m : M) :
    binaryKernel onMirrored op (FloatTensor.host v : FloatTensor H M) (.mirrored3 m) =
      .error onMirrored.failure := rfl

end Shapes

/-! ## Kernels -/

section Kernels

variable {H M : Type}

/-- `IdentityOp::float_host_kernel`: a host operand placed, a mirrored one demirrored. -/
def IdentityOp.floatHostKernel (place : H → H) (demirror : M → H) (x : FloatTensor H M) :
    Except Failure (FloatTensor H M) :=
  .ok (.host (match x with
    | .host v => place v
    | .mirrored3 v => demirror v))

/-- `MeanOp::float_host_kernel`. -/
def MeanOp.floatHostKernel (mean : Option Nat → H → H) (axis : Option Nat) (x : FloatTensor H M) :
    Except Failure (FloatTensor H M) :=
  unaryKernel .unimplemented (fun v => .host (mean axis v)) x

/-- `CastOp::float_host_kernel`. -/
def CastOp.floatHostKernel {H2 M2 : Type} (cast : H → H2) (x : FloatTensor H M) :
    Except Failure (FloatTensor H2 M2) :=
  unaryKernel .unimplemented (fun v => .host (cast v)) x

/-- `SumOp::float_host_kernel`. -/
def SumOp.floatHostKernel (sum : Option Nat → H → H) (axis : Option Nat) (x : FloatTensor H M) :
    Except Failure (FloatTensor H M) :=
  unaryKernel .unimplemented (fun v => .host (sum axis v)) x

/-- `SigmoidOp::float_host_kernel`. -/
def SigmoidOp.floatHostKernel (sigmoid : H → H) (x : FloatTensor H M) : Except Failure (FloatTensor H M) :=
  unaryKernel (.unsupported "SigmoidOp @ Mirrored3Placement") (fun v => .host (sigmoid v)) x

/-- `SoftmaxOp::float_host_kernel`. -/
def SoftmaxOp.floatHostKernel (softmax : Nat → Nat → H → H) (axis upmostIndex : Nat) (x : FloatTensor H M) :
    Except Failure (FloatTensor H M) :=
  unaryKernel .unimplemented (fun v => .host (softmax axis upmostIndex v)) x

/-- `AtLeast2DOp::float_host_kernel`. -/
def AtLeast2DOp.floatHostKernel (atLeast2d : Bool → H → H) (toColumnVector : Bool) (x : FloatTensor H M) :
    Except Failure (FloatTensor H M) :=
  unaryKernel .unimplemented (fun v => .host (atLeast2d toColumnVector v)) x

/-- `AbsOp::float_host_kernel`. -/
def AbsOp.floatHostKernel (abs : H → H) (x : FloatTensor H M) : Except Failure (FloatTensor H M) :=
  unaryKernel .unimplemented (fun v => .host (abs v)) x

/-- `ReluOp::float_host_kernel`. -/
def ReluOp.floatHostKernel (relu : H → H) (x : FloatTensor H M) : Except Failure (FloatTensor H M) :=
  unaryKernel (.unsupported "ReluOp @ Mirrored3Placement") (fun v => .host (relu v)) x

/-- `AddOp::float_host_kernel`. -/
def AddOp.floatHostKernel (add : H → H → H) (x y : FloatTensor H M) : Except Failure (FloatTensor H M) :=
  binaryKernel .unimplemented (fun v w => .host (add v w)) x y

/-- `AddNOp::float_kernel`: the first operand decides the branch, and in the
host branch every operand is unwrapped. -/
def AddNOp.floatKernel (addN : List H → H) (xs : List (FloatTensor H M)) :
    Except Failure (FloatTensor H M) :=
  match xs with
  | [] => .error (.error (.invalidArgument "cannot add_n on empty array of tensors"))
  | first :: _ => do
    let vec ← match first with
      | .host _ => xs.mapM (hostOperand .unimplemented)
      | .mirrored3 _ => .error (.panic notImplemented)
    pure (.host (addN vec))

/-- `SubOp::float_host_kernel`. -/
def SubOp.floatHostKernel (sub : H → H → H) (x y : FloatTensor H M) : Except Failure (FloatTensor H M) :=
  binaryKernel .unimplemented (fun v w => .host (sub v w)) x y

/-- `MulOp::float_host_kernel`. -/
def MulOp.floatHostKernel (mul : H → H → H) (x y : FloatTensor H M) : Except Failure (FloatTensor H M) :=
  binaryKernel .unimplemented (fun v w => .host (mul v w)) x y

/-- `DivOp::float_host_kernel`. -/
def DivOp.floatHostKernel (div : H → H → H) (x y : FloatTensor H M) : Except Failure (FloatTensor H M) :=
  binaryKernel .unimplemented (fun v w => .host (div v w)) x y

/-- `DotOp::float_host_kernel`. -/
def DotOp.floatHostKernel (dot : H → H → H) (x y : FloatTensor H M) : Except Failure (FloatTensor H M) :=
  binaryKernel .unimplemented (fun v w => .host (dot v w)) x y

/-- `LessOp::float_kernel`. -/
def LessOp.floatKernel {B R : Type} (less : H → H → B) (x y : FloatTensor H M) :
    Except Failure (BoolTensor B R) :=
  binaryKernel .unimplemented (fun v w => .host (less v w)) x y

/-- `GreaterOp::float_kernel`: its message names the operation without `Op`. -/
def GreaterOp.floatKernel {B R : Type} (greater : H → H → B) (x y : FloatTensor H M) :
    Except Failure (BoolTensor B R) :=
  binaryKernel (.unsupported "Greater @ Mirrored3Placement") (fun v w => .host (greater v w)) x y

/-- `ReshapeOp::float_host_kernel`. -/
def ReshapeOp.floatHostKernel {S : Type} (reshape : H → S → H) (x : FloatTensor H M) (shape : S) :
    Except Failure (FloatTensor H M) :=
  unaryKernel .unimplemented (fun v => .host (reshape v shape)) x

/-- `IndexAxisOp::float_host_kernel`. -/
def IndexAxisOp.floatHostKernel (indexAxis : Nat → Nat → H → H) (axis index : Nat) (x : FloatTensor H M) :
    Except Failure (FloatTensor H M) :=
  unaryKernel .unimplemented (fun v => .host (indexAxis axis index v)) x

/-- `ExpandDimsOp::float_host_kernel`. -/
def ExpandDimsOp.floatHostKernel (expandDims : List Nat → H → H) (axis : List Nat) (x : FloatTensor H M) :
    Except Failure (FloatTensor H M) :=
  unaryKernel .unimplemented (fun v => .host (expandDims axis v)) x

/-- `ConcatOp::float_host_kernel`: every operand unwrapped in turn. -/
def ConcatOp.floatHostKernel (concatenate : Nat → List H → H) (axis : Nat) (xs : List (FloatTensor H M)) :
    Except Failure (FloatTensor H M) := do
  let xs ← xs.mapM (hostOperand .unimplemented)
  pure (.host (concatenate axis xs))

/-- `TransposeOp::float_kernel`. -/
def TransposeOp.floatKernel (transpose : H → H) (x : FloatTensor H M) : Except Failure (FloatTensor H M) :=
  unaryKernel .unimplemented (fun v => .host (transpose v)) x

/-- `InverseOp::float_host_kernel`. -/
def InverseOp.floatHostKernel (inverse : H → H) (x : FloatTensor H M) : Except Failure (FloatTensor H M) :=
  unaryKernel .unimplemented (fun v => .host (inverse v)) x

/-- `LogOp::float_host_kernel`. -/
def LogOp.floatHostKernel (log : H → H) (x : FloatTensor H M) : Except Failure (FloatTensor H M) :=
  unaryKernel (.unsupported "LogOp @ Mirrored3Placement") (fun v => .host (log v)) x

/-- `Log2Op::float_host_kernel`. -/
def Log2Op.floatHostKernel (log2 : H → H) (x : FloatTensor H M) : Except Failure (FloatTensor H M) :=
  unaryKernel (.unsupported "Log2Op @ Mirrored3Placement") (fun v => .host (log2 v)) x

/-- `SqrtOp::float_host_kernel`. -/
def SqrtOp.floatHostKernel (sqrt : H → H) (x : FloatTensor H M) : Except Failure (FloatTensor H M) :=
  unaryKernel (.unsupported "SqrtOp @ Mirrored3Placement") (fun v => .host (sqrt v)) x

/-- `ExpOp::float_kernel`. -/
def ExpOp.floatKernel (exp : H → H) (x : FloatTensor H M) : Except Failure (FloatTensor H M) :=
  unaryKernel (.unsupported "ExpOp @ Mirrored3Placement") (fun v => .host (exp v)) x

/-- `SaveOp::float_kernel`. -/
def SaveOp.floatKernel {U : Type} (save : String → H → U) (key : String) (x : FloatTensor H M) :
    Except Failure U :=
  unaryKernel .unimplemented (save key) x

/-- `ShapeOp::float_kernel`. -/
def ShapeOp.floatKernel {S : Type} (shape : H → S) (x : FloatTensor H M) : Except Failure S :=
  unaryKernel .unimplemented shape x

/-- `OutputOp::float_kernel`. -/
def OutputOp.floatKernel (output : H → H) (x : FloatTensor H M) : Except Failure (FloatTensor H M) :=
  unaryKernel .unimplemented (fun v => .host (output v)) x

/-- `MuxOp::float_host_kernel`: a replicated selector revealed, mirrored
operands demirrored. -/
def MuxOp.floatHostKernel {B R : Type} (reveal : R → B) (demirror : M → H) (mux : B → H → H → H)
    (s : BoolTensor B R) (x y : FloatTensor H M) : Except Failure (FloatTensor H M) :=
  let s := match s with
    | .host v => v
    | .replicated v => reveal v
  let x := match x with
    | .host v => v
    | .mirrored3 v => demirror v
  let y := match y with
    | .host v => v
    | .mirrored3 v => demirror v
  .ok (.host (mux s x y))

/-- `SliceOp::float_host_kernel`. -/
def SliceOp.floatHostKernel {I : Type} (slice : I → H → H) (info : I) (x : FloatTensor H M) :
    Except Failure (FloatTensor H M) :=
  unaryKernel (.unsupported "SliceOp @ Mirrored3Placement") (fun v => .host (slice info v)) x

/-- `MaximumOp::float_host_kernel`: the host operands kept, and an error when
one was dropped. -/
def MaximumOp.floatHostKernel (maximum : List H → H) (xs : List (FloatTensor H M)) :
    Except Failure (FloatTensor H M) :=
  let xsF := xs.filterMap fun x => match x with
    | .host x => some x
    | _ => none
  if xsF.length ≠ xs.length then .error (.error (.unimplementedOperator "MaximumOp @ Mirrored3Placement"))
  else .ok (.host (maximum xsF))

/-- `SqueezeOp::float_kernel`. -/
def SqueezeOp.floatKernel (squeeze : Option Nat → H → H) (axis : Option Nat) (x : FloatTensor H M) :
    Except Failure (FloatTensor H M) :=
  unaryKernel (.unsupported "SqueezeOp @ Mirrored3Placement") (fun v => .host (squeeze axis v)) x

end Kernels

/-! ## Variadic kernels -/

section Variadic

variable {H M : Type}

/-- Unwrapping a list of operands succeeds on host operands only. -/
theorem mapM_hostOperand_host (onMirrored : OnMirrored) (vs : List H) :
    (vs.map fun v => (FloatTensor.host v : FloatTensor H M)).mapM (hostOperand onMirrored) = .ok vs := by
  induction vs with
  | nil => rfl
  | cons v vs ih => rw [List.map_cons, List.mapM_cons, hostOperand_host, ih]; rfl

/-- One `Mirrored3` operand anywhere ends the unwrapping with its failure. -/
theorem mapM_hostOperand_mirrored3 (onMirrored : OnMirrored) {xs : List (FloatTensor H M)} {m : M}
    (mirrored : .mirrored3 m ∈ xs) : xs.mapM (hostOperand onMirrored) = .error onMirrored.failure := by
  induction xs with
  | nil => cases mirrored
  | cons x xs ih =>
    rw [List.mapM_cons]
    rcases List.mem_cons.1 mirrored with rfl | later
    · rfl
    · cases x with
      | host v => rw [hostOperand_host, ih later]; rfl
      | mirrored3 m' => rfl

/-- Every list of operands is all on the host or holds a `Mirrored3` one. -/
theorem host_or_mirrored3 (xs : List (FloatTensor H M)) :
    (∃ vs : List H, xs = vs.map .host) ∨ ∃ m, .mirrored3 m ∈ xs := by
  induction xs with
  | nil => exact .inl ⟨[], rfl⟩
  | cons x xs ih =>
    cases x with
    | mirrored3 m => exact .inr ⟨m, List.mem_cons_self _ _⟩
    | host v =>
      rcases ih with ⟨vs, rfl⟩ | ⟨m, mem⟩
      · exact .inl ⟨v :: vs, rfl⟩
      · exact .inr ⟨m, List.mem_cons_of_mem _ mem⟩

/-- `AddNOp::float_kernel` unwraps every operand with `unimplemented!()`: its
branch on the first operand changes nothing. -/
theorem AddNOp.floatKernel_eq (addN : List H → H) (first : FloatTensor H M) (rest : List (FloatTensor H M)) :
    AddNOp.floatKernel addN (first :: rest) =
      (fun vec => .host (addN vec)) <$> (first :: rest).mapM (hostOperand .unimplemented) := by
  cases first with
  | host v => exact (map_eq_pure_bind _ _).symm
  | mirrored3 m => rfl

/-- `MaximumOp::float_host_kernel`'s count of the host operands is the unwrapping
of every operand with `Err(UnimplementedOperator)`. -/
theorem MaximumOp.floatHostKernel_eq (maximum : List H → H) (xs : List (FloatTensor H M)) :
    MaximumOp.floatHostKernel maximum xs =
      (fun vec => .host (maximum vec)) <$> xs.mapM (hostOperand (.unsupported "MaximumOp @ Mirrored3Placement")) := by
  rcases host_or_mirrored3 xs with ⟨vs, rfl⟩ | ⟨m, mirrored⟩
  · rw [mapM_hostOperand_host]
    simp [MaximumOp.floatHostKernel, List.filterMap_map, Function.comp_def]
  · rw [mapM_hostOperand_mirrored3 _ mirrored]
    have dropped : (xs.filterMap fun x : FloatTensor H M => match x with
        | .host x => some x
        | _ => none).length ≠ xs.length :=
      fun same => by simpa using List.filterMap_length_eq_length.1 same _ mirrored
    simp only [MaximumOp.floatHostKernel, if_pos dropped]
    rfl

end Variadic

/-! ## Panics on `Mirrored3` operands -/

/-- A `Mirrored3` operand makes `AddOp::float_host_kernel`, `AddNOp::float_kernel`
and `ConcatOp::float_host_kernel` panic, in any position and whatever the other
operands, where `SigmoidOp` and `MaximumOp` report the same operand as an
error; `RingFixedpointDecodeOp::float32_kernel` panics on every input, and
`IndexAxisOp::host_bit_kernel` on every index past the axis, `BitXorOp::kernel`
on every pair of shapes that do not broadcast. -/
theorem mirrored3_operands_panic {H M : Type} :
    (∀ (add : H → H → H) (x : FloatTensor H M) (m : M),
      AddOp.floatHostKernel add x (.mirrored3 m) = .error (.panic notImplemented) ∧
        AddOp.floatHostKernel add (.mirrored3 m) x = .error (.panic notImplemented)) ∧
    (∀ (addN : List H → H) (xs : List (FloatTensor H M)) (m : M), .mirrored3 m ∈ xs →
      AddNOp.floatKernel addN xs = .error (.panic notImplemented)) ∧
    (∀ (concatenate : Nat → List H → H) (axis : Nat) (xs : List (FloatTensor H M)) (m : M),
      .mirrored3 m ∈ xs → ConcatOp.floatHostKernel concatenate axis xs = .error (.panic notImplemented)) ∧
    (∀ (sigmoid : H → H) (m : M), SigmoidOp.floatHostKernel sigmoid (.mirrored3 m : FloatTensor H M) =
      .error (.error (.unimplementedOperator "SigmoidOp @ Mirrored3Placement"))) ∧
    (∀ (maximum : List H → H) (xs : List (FloatTensor H M)) (m : M), .mirrored3 m ∈ xs →
      MaximumOp.floatHostKernel maximum xs =
        .error (.error (.unimplementedOperator "MaximumOp @ Mirrored3Placement"))) ∧
    (∀ (scalingBase scalingExp : Nat) (x : Host.HostRing64Tensor),
      (Host.RingFixedpointDecodeOp.float32Kernel scalingBase scalingExp x : Except Failure (Host.ArrayD H)) =
        .error (.panic notImplemented)) ∧
    (∀ (x : Host.HostBitTensor) (length : Nat) (rest : List Nat) (index : Nat), x.shape = length :: rest →
      length ≤ index →
        Host.IndexAxisOp.hostBitKernel 0 index x = .error (.panic (Host.ArrayD.collapseAxisFailed index length x.shape))) ∧
    (∀ x y : Host.HostBitTensor, Host.ArrayD.coBroadcast x.shape y.shape = none →
      Host.BitXorOp.kernel x y = .error (.panic Host.ArrayD.broadcastFailed)) := by
  refine ⟨fun add x m => ⟨by cases x <;> rfl, rfl⟩, fun addN xs m mirrored => ?addN,
    fun concatenate axis xs m mirrored => ?concat, fun _ _ => rfl, fun maximum xs m mirrored => ?maximum,
    fun _ _ _ => rfl, fun x length rest index shaped past => ?index,
    fun _ _ apart => Host.ArrayD.zipBroadcast_of_coBroadcast_none _ apart⟩
  case addN =>
    cases xs with
    | nil => cases mirrored
    | cons first rest => rw [AddNOp.floatKernel_eq, mapM_hostOperand_mirrored3 _ mirrored]; rfl
  case concat =>
    show xs.mapM _ >>= _ = _
    rw [mapM_hostOperand_mirrored3 _ mirrored]
    rfl
  case maximum => rw [MaximumOp.floatHostKernel_eq, mapM_hostOperand_mirrored3 _ mirrored]; rfl
  case index =>
    simp [Host.IndexAxisOp.hostBitKernel, Host.ArrayD.indexAxis, shaped, Nat.not_lt.2 past]

/-- A host tensor and a mirrored one added by `AddNOp::float_kernel`. -/
theorem mirrored3_operands_panic_in_addN :
    FloatTensor.mirrored3 () ∈ [(FloatTensor.host 1 : FloatTensor Nat Unit), .mirrored3 ()] ∧
      AddNOp.floatKernel List.sum [(FloatTensor.host 1 : FloatTensor Nat Unit), .mirrored3 ()] =
        .error (.panic notImplemented) :=
  ⟨List.mem_cons_of_mem _ (List.mem_singleton_self _),
    (@mirrored3_operands_panic Nat Unit).2.1 List.sum _ () (List.mem_cons_of_mem _ (List.mem_singleton_self _))⟩

end Moose.Floatingpoint

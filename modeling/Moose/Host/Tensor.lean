import Moose.Computation
import Mathlib

/-!
# Host tensors

`ndarray`'s `ArrayD` as the host kernels use it: a shape and the elements in
row-major (standard) order. The operations are the ones the kernels call:
element-wise maps, arithmetic with broadcasting, `index_axis`, `stack` along
the first axis, `into_shape`, `into_diag` and the insertion of axes.

A panic of `ndarray` (an axis or an index out of bounds, shapes that do not
broadcast) is a `Failure.panic` with the text `ndarray` and `rustc` print; a
`ShapeError`, which the kernels turn into a `KernelError`, is its display text.

The memory layout of an array, its strides, is kept beside it: only
`into_shape` reads it, and it refuses an array whose memory is in neither
row-major nor column-major order, such as the strided result of `into_diag`.
Placements of host tensors are not modelled: no modelled kernel reads them.
-/

namespace Moose.Host

/-- `ArrayD<A>`: a shape and its elements in row-major order. -/
structure ArrayD (α : Type) where
  shape : List Nat
  elems : List α
  elems_length : elems.length = shape.prod
  deriving DecidableEq

/-! ## Row-major positions -/

/-- Every index of an array of `shape`, in row-major order. -/
def indices : List Nat → List (List Nat)
  | [] => [[]]
  | length :: shape => (List.range length).flatMap fun i => (indices shape).map (i :: ·)

/-- The row-major position of an index. -/
def offset : List Nat → List Nat → Nat
  | _ :: shape, i :: index => i * shape.prod + offset shape index
  | _, _ => 0

theorem range_mul_flatMap (m n : Nat) :
    (List.range m).flatMap (fun i => (List.range n).map (i * n + ·)) = List.range (m * n) := by
  induction m with
  | zero => simp
  | succ m ih => rw [List.range_succ, List.flatMap_append, ih, Nat.succ_mul, List.range_add]; simp

/-- Row-major order enumerates the positions in order. -/
theorem map_offset_indices (shape : List Nat) :
    (indices shape).map (offset shape) = List.range shape.prod := by
  induction shape with
  | nil => rfl
  | cons length shape ih =>
    have row : ∀ i, (indices shape).map (fun index => offset (length :: shape) (i :: index)) =
        (List.range shape.prod).map (i * shape.prod + ·) := fun i => by
      rw [← ih, List.map_map]; rfl
    simp only [indices, List.map_flatMap, List.map_map, Function.comp_def, row, range_mul_flatMap,
      List.prod_cons]

@[simp] theorem length_indices (shape : List Nat) : (indices shape).length = shape.prod := by
  rw [← List.length_map _ (offset shape), map_offset_indices, List.length_range]

theorem length_flatMap_uniform {γ : Type} {l : List γ} {f : γ → List α} {size : Nat}
    (uniform : ∀ a ∈ l, (f a).length = size) : (l.flatMap f).length = l.length * size := by
  induction l with
  | nil => simp
  | cons a l ih =>
    simp only [List.flatMap_cons, List.length_append, List.length_cons, Nat.succ_mul]
    rw [uniform a (List.mem_cons_self _ _), ih fun b mem => uniform b (List.mem_cons_of_mem _ mem)]
    omega

/-- Reading the concatenation of blocks of one size at block `i`, place `k`. -/
theorem getD_flatMap_uniform {γ : Type} {l : List γ} {f : γ → List α} {size : Nat}
    (uniform : ∀ a ∈ l, (f a).length = size) {i k : Nat} (block : i < l.length) (place : k < size)
    (fallback : α) : (l.flatMap f).getD (i * size + k) fallback = (f l[i]).getD k fallback := by
  induction l generalizing i with
  | nil => simp at block
  | cons a l ih =>
    have first := uniform a (List.mem_cons_self _ _)
    cases i with
    | zero =>
      simp only [List.flatMap_cons, Nat.zero_mul, Nat.zero_add, List.getD_eq_getElem?_getD,
        List.getElem_cons_zero]
      rw [List.getElem?_append_left (by omega)]
    | succ i =>
      simp only [List.flatMap_cons, List.getD_eq_getElem?_getD, List.getElem_cons_succ]
      rw [List.getElem?_append_right (by rw [first, Nat.succ_mul]; omega), first,
        show (i + 1) * size + k - size = i * size + k by rw [Nat.succ_mul]; omega]
      simpa using ih (fun b mem => uniform b (List.mem_cons_of_mem _ mem)) (by simpa using block)

theorem map_getD_range (l : List α) (fallback : α) :
    (List.range l.length).map (fun k => l.getD k fallback) = l := by
  apply List.ext_getElem (by simp)
  intro k within _
  simp [List.getElem?_eq_getElem (by simpa using within)]

theorem getD_mem_or_default (l : List α) (k : Nat) (fallback : α) :
    l.getD k fallback ∈ l ∨ l.getD k fallback = fallback := by
  rw [List.getD_eq_getElem?_getD]
  cases found : l[k]? with
  | none => exact .inr rfl
  | some v => exact .inl (List.getElem?_mem found)

theorem exists_of_mem_zipWith {γ : Type} {f : α → β → γ} {l : List α} {l' : List β} {v : γ}
    (mem : v ∈ List.zipWith f l l') : ∃ a ∈ l, ∃ b ∈ l', v = f a b := by
  induction l generalizing l' with
  | nil => simp at mem
  | cons a l ih =>
    cases l' with
    | nil => simp at mem
    | cons b l' =>
      rcases List.mem_cons.1 mem with rfl | later
      · exact ⟨a, List.mem_cons_self _ _, b, List.mem_cons_self _ _, rfl⟩
      · obtain ⟨a', mem_a, b', mem_b, rfl⟩ := ih later
        exact ⟨a', List.mem_cons_of_mem _ mem_a, b', List.mem_cons_of_mem _ mem_b, rfl⟩

theorem prod_insertIdx_one : ∀ (position : Nat) (shape : List Nat),
    (shape.insertIdx position 1).prod = shape.prod
  | 0, shape => by simp
  | _ + 1, [] => rfl
  | position + 1, length :: shape => by simp [prod_insertIdx_one position shape]

namespace ArrayD

variable {α β : Type}

@[ext] theorem ext {x y : ArrayD α} (sameShape : x.shape = y.shape) (sameElems : x.elems = y.elems) :
    x = y := by
  cases x; cases y; simp_all

/-- Every element satisfies `p`. -/
def All (p : α → Prop) (x : ArrayD α) : Prop := ∀ v ∈ x.elems, p v

/-! ## Element-wise operations -/

/-- `ArrayD::from_elem(shape, value)`. -/
def fromElem (shape : List Nat) (value : α) : ArrayD α :=
  ⟨shape, List.replicate shape.prod value, List.length_replicate _ _⟩

/-- `mapv`: a function applied to every element. -/
def mapv (f : α → β) (x : ArrayD α) : ArrayD β :=
  ⟨x.shape, x.elems.map f, by rw [List.length_map, x.elems_length]⟩

@[simp] theorem fromElem_shape (shape : List Nat) (value : α) : (fromElem shape value).shape = shape := rfl

@[simp] theorem fromElem_elems (shape : List Nat) (value : α) :
    (fromElem shape value).elems = List.replicate shape.prod value := rfl

@[simp] theorem mapv_shape (f : α → β) (x : ArrayD α) : (x.mapv f).shape = x.shape := rfl

@[simp] theorem mapv_elems (f : α → β) (x : ArrayD α) : (x.mapv f).elems = x.elems.map f := rfl

@[simp] theorem mapv_mapv {γ : Type} (f : α → β) (g : β → γ) (x : ArrayD α) :
    (x.mapv f).mapv g = x.mapv (g ∘ f) := ArrayD.ext rfl (List.map_map _ _ _)

/-- A map that fixes every element leaves the array as it is. -/
theorem mapv_eq_self {f : α → α} {x : ArrayD α} (fixes : ∀ v ∈ x.elems, f v = v) : x.mapv f = x :=
  ArrayD.ext rfl ((List.map_congr_left fixes).trans (List.map_id' _))

/-- A constant map is the fill of the array's shape. -/
theorem mapv_const (x : ArrayD α) (value : β) : x.mapv (fun _ => value) = fromElem x.shape value :=
  ArrayD.ext rfl (by rw [mapv_elems, fromElem_elems, List.map_const', x.elems_length])

/-- The panic of an arithmetic operator on arrays whose shapes do not
broadcast: the `unwrap` of `broadcast_with`'s `ShapeError`. -/
def broadcastFailed : String :=
  "called `Result::unwrap()` on an `Err` value: ShapeError/IncompatibleShape: incompatible shapes"

/-- The shape two shapes broadcast to, compared from their last axes: equal
lengths, or a length one stretched to the other. -/
def coBroadcast (shape shape' : List Nat) : Option (List Nat) :=
  (fromLast shape.reverse shape'.reverse).map List.reverse
where
  /-- `coBroadcast` on shapes written from their last axis. -/
  fromLast : List Nat → List Nat → Option (List Nat)
    | [], rest => some rest
    | rest, [] => some rest
    | length :: shape, length' :: shape' => do
      let common ← if length = length' ∨ length' = 1 then some length
        else if length = 1 then some length' else none
      let rest ← fromLast shape shape'
      pure (common :: rest)

/-- The element `x` contributes at `index` of a broadcast shape: the leading
axes `x` lacks are dropped, its axes of length one are read at 0. -/
def broadcastAt [Inhabited α] (x : ArrayD α) (index : List Nat) : α :=
  let own := index.drop (index.length - x.shape.length)
  x.elems.getD (offset x.shape (List.zipWith (fun length i => if length = 1 then 0 else i) x.shape own))
    default

/-- The element-by-element branch of an arithmetic operator, on equal shapes. -/
def zipSame (f : α → α → α) (x y : ArrayD α) (same : x.shape = y.shape) : ArrayD α :=
  ⟨x.shape, List.zipWith f x.elems y.elems, by simp [x.elems_length, y.elems_length, same]⟩

/-- An arithmetic operator of `ndarray` on two arrays: element by element on
equal shapes; otherwise on both, broadcast to their common shape, and a panic
when they have none. -/
def zipBroadcast [Inhabited α] (f : α → α → α) (x y : ArrayD α) : Except Failure (ArrayD α) :=
  if same : x.shape = y.shape then .ok (zipSame f x y same)
  else
    match coBroadcast x.shape y.shape with
    | none => .error (.panic broadcastFailed)
    | some shape => .ok ⟨shape, (indices shape).map fun index => f (x.broadcastAt index) (y.broadcastAt index),
        by simp⟩

@[simp] theorem zipSame_shape (f : α → α → α) (x y : ArrayD α) (same) : (zipSame f x y same).shape = x.shape :=
  rfl

@[simp] theorem zipSame_elems (f : α → α → α) (x y : ArrayD α) (same) :
    (zipSame f x y same).elems = List.zipWith f x.elems y.elems := rfl

theorem zipBroadcast_of_same [Inhabited α] (f : α → α → α) {x y : ArrayD α} (same : x.shape = y.shape) :
    zipBroadcast f x y = .ok (zipSame f x y same) := dif_pos same

theorem coBroadcast.fromLast_self : ∀ shape : List Nat, coBroadcast.fromLast shape shape = some shape
  | [] => rfl
  | length :: shape => by simp [coBroadcast.fromLast, coBroadcast.fromLast_self shape]

theorem coBroadcast_self (shape : List Nat) : coBroadcast shape shape = some shape := by
  simp [coBroadcast, coBroadcast.fromLast_self]

/-- Shapes that do not broadcast make an arithmetic operator panic. -/
theorem zipBroadcast_of_coBroadcast_none [Inhabited α] (f : α → α → α) {x y : ArrayD α}
    (apart : coBroadcast x.shape y.shape = none) : zipBroadcast f x y = .error (.panic broadcastFailed) := by
  have differ : x.shape ≠ y.shape := fun same => by rw [same, coBroadcast_self] at apart; cases apart
  rw [zipBroadcast, dif_neg differ, apart]

theorem zipBroadcast_mapv [Inhabited α] (f : α → α → α) (g h : β → α) (x : ArrayD β) :
    zipBroadcast f (x.mapv g) (x.mapv h) = .ok (x.mapv fun v => f (g v) (h v)) := by
  rw [zipBroadcast_of_same f (show (x.mapv g).shape = (x.mapv h).shape from rfl)]
  exact congrArg Except.ok (ArrayD.ext rfl (by simp [List.zipWith_map, List.zipWith_same]))

/-- Folding `zipBroadcast f` over maps of one array is the pointwise fold. -/
theorem foldlM_zipBroadcast_mapv {γ : Type} [Inhabited α] (f : α → α → α) (x : ArrayD β) (h : γ → β → α) :
    ∀ (l : List γ) (g : β → α),
      (l.map fun a => x.mapv (h a)).foldlM (fun acc item => zipBroadcast f acc item) (x.mapv g) =
        .ok (x.mapv fun v => (l.map fun a => h a v).foldl f (g v))
  | [], g => rfl
  | a :: l, g => by
    rw [List.map_cons, List.foldlM_cons, zipBroadcast_mapv]
    exact foldlM_zipBroadcast_mapv f x h l fun v => f (g v) (h a v)

theorem zipWith_replicate_length {γ : Type} (f : α → β → γ) (l : List α) (c : β) :
    List.zipWith f l (List.replicate l.length c) = l.map (f · c) := by
  induction l <;> simp_all [List.replicate_succ]

theorem zipBroadcast_fromElem [Inhabited α] (f : α → α → α) (x : ArrayD α) {shape : List Nat}
    (same : x.shape = shape) (c : α) : zipBroadcast f x (fromElem shape c) = .ok (x.mapv (f · c)) := by
  rw [zipBroadcast_of_same f same]
  refine congrArg Except.ok (ArrayD.ext rfl ?_)
  simp only [zipSame_elems, fromElem_elems, mapv_elems, ← same, ← x.elems_length]
  exact zipWith_replicate_length f x.elems c

/-- Every element of a result is the operator on an element of each operand,
or on the default a read past the end gives. -/
theorem mem_zipBroadcast [Inhabited α] {f : α → α → α} {x y z : ArrayD α}
    (result : zipBroadcast f x y = .ok z) {v : α} (mem : v ∈ z.elems) :
    ∃ a b, (a ∈ x.elems ∨ a = default) ∧ (b ∈ y.elems ∨ b = default) ∧ v = f a b := by
  unfold zipBroadcast at result
  split at result
  · cases result
    obtain ⟨a, mem_a, b, mem_b, rfl⟩ := exists_of_mem_zipWith mem
    exact ⟨a, b, .inl mem_a, .inl mem_b, rfl⟩
  · split at result
    · cases result
    · cases result
      obtain ⟨index, -, rfl⟩ := List.mem_map.1 mem
      exact ⟨_, _, getD_mem_or_default _ _ _, getD_mem_or_default _ _ _, rfl⟩

/-! ## Memory layout

`ndarray` keeps the elements of an array in memory at the strides of its axes.
The strides are an input of `into_shape`, the one operation that reads them,
and `map` and `into_diag` say which strides they give their result. No
operation modelled here makes a stride negative, so strides are natural
numbers. -/

/-- The row-major strides of a shape: each axis steps over the product of the
lengths after it. -/
def rowMajorStrides : List Nat → List Nat
  | [] => []
  | _ :: shape => shape.prod :: rowMajorStrides shape

/-- `default_strides`: the row-major strides, all zero when an axis is empty. -/
def defaultStrides (shape : List Nat) : List Nat :=
  if shape.all (· != 0) then rowMajorStrides shape else shape.map fun _ => 0

/-- `is_standard_layout`: the array is empty, or every axis longer than one has
its default stride, so that memory holds the elements in row-major order. -/
def isStandardLayout (shape strides : List Nat) : Bool :=
  shape.any (· == 0) ||
    ((shape.zip strides).zip (defaultStrides shape)).all fun ((length, stride), rowStride) =>
      length == 1 || stride == rowStride

/-- `_fastest_varying_stride_order`: the axes sorted by their strides, the
smallest first, axes of equal strides in their order. -/
def fastestVaryingStrideOrder (strides : List Nat) : List Nat :=
  (List.range strides.length).insertionSort fun axis axis' => strides.getD axis 0 ≤ strides.getD axis' 0

/-- The loop of `is_contiguous` over the axes in the order of their strides:
each axis longer than one steps over the product of the lengths of the axes
before it. -/
def packedStrides (shape strides : List Nat) : Nat → List Nat → Bool
  | _, [] => true
  | cstride, axis :: order =>
    (shape.getD axis 0 == 1 || strides.getD axis 0 == cstride) &&
      packedStrides shape strides (cstride * shape.getD axis 0) order

/-- `is_contiguous`: the strides are the default ones or, for an array that is
not of one axis, they pack the elements in memory without gaps in some order
of the axes. (A one-axis array is contiguous at stride `-1` too, which nothing
here makes.) -/
def isContiguous (shape strides : List Nat) : Bool :=
  strides == defaultStrides shape ||
    (shape.length != 1 && packedStrides shape strides 1 (fastestVaryingStrideOrder strides))

example : isContiguous [2, 3] [1, 2] ∧ ¬isStandardLayout [2, 3] [1, 2] ∧ ¬isContiguous [2] [3] := by decide

/-- The strides `map` and `mapv` give their result: the operand's when its
memory is contiguous, which is mapped in memory order; the default ones
otherwise. -/
def mapStrides (shape strides : List Nat) : List Nat :=
  if isContiguous shape strides then strides else defaultStrides shape

/-- The strides `into_diag` gives its result: one axis, stepping by the sum of
the operand's strides. -/
def diagStrides (strides : List Nat) : List Nat := [strides.sum]

theorem all_zip_zip_self : ∀ (shape strides : List Nat),
    ((shape.zip strides).zip strides).all (fun ((length, stride), rowStride) => length == 1 || stride == rowStride)
  | [], _ => rfl
  | _ :: _, [] => rfl
  | _ :: shape, _ :: strides => by simp [all_zip_zip_self shape strides]

/-- The default strides are in standard layout. -/
@[simp] theorem isStandardLayout_defaultStrides (shape : List Nat) :
    isStandardLayout shape (defaultStrides shape) := by
  unfold isStandardLayout defaultStrides
  split
  · rw [all_zip_zip_self, Bool.or_true]
  · simp_all

/-- `map` keeps the default strides. -/
@[simp] theorem mapStrides_defaultStrides (shape : List Nat) :
    mapStrides shape (defaultStrides shape) = defaultStrides shape := by
  simp [mapStrides, isContiguous]

/-- `map` keeps an array in standard layout. -/
theorem isStandardLayout_mapStrides {shape strides : List Nat} (standard : isStandardLayout shape strides) :
    isStandardLayout shape (mapStrides shape strides) := by
  unfold mapStrides
  split
  · exact standard
  · exact isStandardLayout_defaultStrides shape

/-! ## Changes of shape -/

/-- The panic of a slice read past its end, as `rustc` prints it. -/
def indexOutOfBounds (len index : Nat) : String :=
  "index out of bounds: the len is " ++ toString len ++ " but the index is " ++ toString index

/-- The `Debug` text of an `IxDyn` shape: the inline representation of
`IxDynImpl`, padded with zeros to four axes, up to four axes, a boxed slice
beyond. -/
def ixDynDebug (shape : List Nat) : String :=
  if shape.length ≤ 4 then
    "IxDynImpl(Inline(" ++ toString shape.length ++ ", " ++
      toString (shape ++ List.replicate (4 - shape.length) 0) ++ "))"
  else "IxDynImpl(Alloc(" ++ toString shape ++ "))"

/-- The panic of `collapse_axis` on an index past the length of its axis. -/
def collapseAxisFailed (index length : Nat) (shape : List Nat) : String :=
  "collapse_axis: Index " ++ toString index ++ " must be less than axis length " ++ toString length ++
    " for array with shape " ++ ixDynDebug shape

/-- `index_axis(Axis(axis), index)`, copied out with `to_owned`: the
sub-array at `index` along `axis`, one axis fewer. It panics on an axis past
the rank (reading the shape's slice) and on an index past the axis
(`collapse_axis`). -/
def indexAxis [Inhabited α] (axis index : Nat) (x : ArrayD α) : Except Failure (ArrayD α) :=
  match x.shape[axis]? with
  | none => .error (.panic (indexOutOfBounds x.shape.length axis))
  | some length =>
    if index < length then
      .ok ⟨x.shape.eraseIdx axis, (indices (x.shape.eraseIdx axis)).map fun position =>
        x.elems.getD (offset x.shape (position.insertIdx axis index)) default, by simp⟩
    else .error (.panic (collapseAxisFailed index length x.shape))

/-- `ndarray::stack(Axis(0), arrays)`: arrays of one shape along a new first
axis. Stacking no arrays, or arrays of different shapes, is a `ShapeError`. -/
def stack (arrays : List (ArrayD α)) : Except String (ArrayD α) :=
  match arrays with
  | [] => .error "ShapeError/Unsupported: unsupported operation"
  | first :: rest =>
    if same : ∀ array ∈ rest, array.shape = first.shape then
      .ok ⟨(rest.length + 1) :: first.shape, first.elems ++ rest.flatMap elems, by
        rw [List.length_append, length_flatMap_uniform fun array mem => by
          rw [array.elems_length, same array mem], first.elems_length, List.prod_cons, Nat.succ_mul]
        omega⟩
    else .error "ShapeError/IncompatibleShape: incompatible shapes"

/-- `reversed_axes`: the axes in reverse order, the element at
`[i₀, …, iₙ]` the original's at `[iₙ, …, i₀]`. -/
def reversedAxes [Inhabited α] (x : ArrayD α) : ArrayD α :=
  ⟨x.shape.reverse, (indices x.shape.reverse).map fun index => x.elems.getD (offset x.shape index.reverse) default,
    by simp⟩

/-- `into_shape(shape)` of an array with strides `strides`, which keeps its
memory: a `ShapeError` on a change of size; the memory read under `shape` in
row-major order when the array is in standard layout, in column-major order
when it has more than one axis and its reversed axes are in standard layout
(Fortran layout); a `ShapeError` for any other layout. -/
def intoShape [Inhabited α] (x : ArrayD α) (strides shape : List Nat) : Except String (ArrayD α) :=
  if same : x.shape.prod = shape.prod then
    if isStandardLayout x.shape strides then .ok ⟨shape, x.elems, x.elems_length.trans same⟩
    else if 1 < x.shape.length ∧ isStandardLayout x.shape.reverse strides.reverse then
      .ok (ArrayD.mk shape.reverse x.reversedAxes.elems (by simp [reversedAxes, List.prod_reverse, same])).reversedAxes
    else .error "ShapeError/IncompatibleLayout: incompatible memory layout"
  else .error "ShapeError/IncompatibleShape: incompatible shapes"

example : (ArrayD.mk [2, 2] [1, 2, 3, 4] rfl).intoShape [1, 2] [4] = .ok ⟨[4], [1, 3, 2, 4], rfl⟩ := rfl

theorem intoShape_of_ne [Inhabited α] {x : ArrayD α} {strides shape : List Nat} (resized : x.shape.prod ≠ shape.prod) :
    x.intoShape strides shape = .error "ShapeError/IncompatibleShape: incompatible shapes" :=
  dif_neg resized

/-- In standard layout, `into_shape` keeps the elements in their order. -/
theorem intoShape_of_standard [Inhabited α] {x : ArrayD α} {strides shape : List Nat}
    (standard : isStandardLayout x.shape strides) (same : x.shape.prod = shape.prod) :
    x.intoShape strides shape = .ok ⟨shape, x.elems, x.elems_length.trans same⟩ := by
  rw [intoShape, dif_pos same, if_pos standard]

/-- A one-axis array out of standard layout has no Fortran layout to fall back
on: `into_shape` refuses it. -/
theorem intoShape_of_one_axis [Inhabited α] {x : ArrayD α} {strides shape : List Nat} (single : x.shape.length = 1)
    (strided : isStandardLayout x.shape strides = false) (same : x.shape.prod = shape.prod) :
    x.intoShape strides shape = .error "ShapeError/IncompatibleLayout: incompatible memory layout" := by
  rw [intoShape, dif_pos same, if_neg (by simp [strided]), if_neg (by omega)]

/-- `into_diag`: the elements at `[i, i, …, i]`, along one axis as long as the
shortest axis (one element for a zero-dimensional array). -/
def intoDiag [Inhabited α] (x : ArrayD α) : ArrayD α :=
  let length := x.shape.min?.getD 1
  ⟨[length], (List.range length).map fun i => x.elems.getD (offset x.shape (x.shape.map fun _ => i)) default,
    by simp⟩

@[simp] theorem intoDiag_shape [Inhabited α] (x : ArrayD α) : x.intoDiag.shape = [x.shape.min?.getD 1] := rfl

/-- `insert_axis(Axis(axis))`: a new axis of length one, a panic past the rank. -/
def insertAxis (x : ArrayD α) (axis : Nat) : Except Failure (ArrayD α) :=
  if axis ≤ x.shape.length then
    .ok ⟨x.shape.insertIdx axis 1, x.elems, by rw [x.elems_length, prod_insertIdx_one]⟩
  else .error (.panic "assertion failed: axis.index() <= self.ndim()")

/-- Modelled from the spec: `expand_dims` on a host tensor (its body is not
among the sources here) inserts an axis of length one at each given position,
the largest first; the elements do not move. -/
def expandDims (axes : List Nat) (x : ArrayD α) : Except Failure (ArrayD α) :=
  (axes.mergeSort fun axis axis' => decide (axis' ≤ axis)).foldlM insertAxis x

/-- Arrays of one shape stack to their concatenation under one more axis. -/
theorem stack_uniform {first : ArrayD α} {rest : List (ArrayD α)}
    (same : ∀ array ∈ rest, array.shape = first.shape) :
    ∃ stacked, stack (first :: rest) = .ok stacked ∧ stacked.shape = (rest.length + 1) :: first.shape ∧
      stacked.elems = (first :: rest).flatMap elems :=
  ⟨_, dif_pos same, rfl, rfl⟩

/-- Stacking `n > 0` maps of one array puts the mapped elements one block
after another, under a new first axis of length `n`. -/
theorem stack_range_mapv {n : Nat} (positive : 0 < n) (x : ArrayD α) (f : Nat → α → β) :
    ∃ stacked, stack ((List.range n).map fun i => x.mapv (f i)) = .ok stacked ∧
      stacked.shape = n :: x.shape ∧ stacked.elems = (List.range n).flatMap fun i => x.elems.map (f i) := by
  obtain ⟨m, rfl⟩ : ∃ m, n = m + 1 := ⟨n - 1, by omega⟩
  obtain ⟨stacked, stackedOk, shape, elems⟩ := @stack_uniform _ (x.mapv (f 0))
    ((List.range m).map fun i => x.mapv (f (i + 1))) (by simp)
  refine ⟨stacked, ?_, by simp [shape], ?_⟩
  · rw [List.range_succ_eq_map, List.map_cons, List.map_map]
    exact stackedOk
  · rw [elems, List.range_succ_eq_map]
    simp [List.flatMap_map, Function.comp_def]

/-- The slice at `index` along the first axis is the `index`-th block of the
elements. -/
theorem indexAxis_zero [Inhabited α] {x : ArrayD α} {length : Nat} {rest : List Nat}
    (shaped : x.shape = length :: rest) {index : Nat} (within : index < length) :
    ∃ y, indexAxis 0 index x = .ok y ∧ y.shape = rest ∧
      y.elems = (List.range rest.prod).map fun k => x.elems.getD (index * rest.prod + k) default := by
  have found : x.shape[0]? = some length := by simp [shaped]
  unfold indexAxis
  split
  · simp_all
  · rename_i length' found'
    obtain rfl : length' = length := by simp_all
    rw [if_pos within]
    refine ⟨_, rfl, by simp [shaped], ?_⟩
    have row : ∀ position : List Nat, offset x.shape (position.insertIdx 0 index) =
        index * rest.prod + offset rest position := fun position => by simp [shaped, offset]
    simp only [row, shaped, List.eraseIdx_zero, List.tail_cons]
    rw [← map_offset_indices rest, List.map_map]
    rfl

/-- The `mapM` of a function that succeeds on every element. -/
theorem mapM_ok {γ ε : Type} {f : γ → Except ε β} {g : γ → β} :
    ∀ {l : List γ}, (∀ a ∈ l, f a = .ok (g a)) → l.mapM f = .ok (l.map g)
  | [], _ => rfl
  | a :: l, each => by
    rw [List.mapM_cons, each a (List.mem_cons_self _ _),
      mapM_ok fun b mem => each b (List.mem_cons_of_mem _ mem)]
    rfl

theorem mem_of_mapM_ok {γ ε : Type} {f : γ → Except ε β} :
    ∀ {l : List γ} {results : List β}, l.mapM f = .ok results → ∀ r ∈ results, ∃ a ∈ l, f a = .ok r
  | [], results, mapped => by cases mapped; simp
  | a :: l, results, mapped => by
    rw [List.mapM_cons] at mapped
    cases first : f a with
    | error e => rw [first] at mapped; cases mapped
    | ok b =>
      cases rest : l.mapM f with
      | error e => rw [first, rest] at mapped; cases mapped
      | ok bs =>
        rw [first, rest] at mapped
        cases mapped
        intro r mem
        rcases List.mem_cons.1 mem with rfl | later
        · exact ⟨a, List.mem_cons_self _ _, first⟩
        · obtain ⟨a', mem', found⟩ := mem_of_mapM_ok rest r later
          exact ⟨a', List.mem_cons_of_mem _ mem', found⟩

/-! ## What the operations keep -/

section All

variable {p : α → Prop}

theorem All.mapv {q : β → Prop} {f : α → β} {x : ArrayD α} (all : x.All p) (keeps : ∀ v, p v → q (f v)) :
    (x.mapv f).All q := by
  intro v mem
  obtain ⟨u, mem_u, rfl⟩ := List.mem_map.1 mem
  exact keeps u (all u mem_u)

theorem All.zipBroadcast [Inhabited α] {f : α → α → α} {x y z : ArrayD α} (all : x.All p) (all' : y.All p)
    (fallback : p default) (keeps : ∀ a b, p a → p b → p (f a b)) (result : zipBroadcast f x y = .ok z) :
    z.All p := by
  intro v mem
  obtain ⟨a, b, mem_a, mem_b, rfl⟩ := mem_zipBroadcast result mem
  exact keeps a b (mem_a.elim (all a) fun same => by rw [same]; exact fallback) (mem_b.elim (all' b) fun same => by rw [same]; exact fallback)

theorem All.indexAxis [Inhabited α] {axis index : Nat} {x y : ArrayD α} (all : x.All p) (fallback : p default)
    (result : ArrayD.indexAxis axis index x = .ok y) : y.All p := by
  unfold ArrayD.indexAxis at result
  split at result
  · cases result
  · split at result <;> cases result
    intro v mem
    obtain ⟨position, -, rfl⟩ := List.mem_map.1 mem
    exact (getD_mem_or_default _ _ _).elim (all _) fun same => by rw [same]; exact fallback

theorem All.stack {arrays : List (ArrayD α)} {y : ArrayD α} (all : ∀ x ∈ arrays, x.All p)
    (result : ArrayD.stack arrays = .ok y) : y.All p := by
  unfold ArrayD.stack at result
  split at result
  · cases result
  · split at result <;> cases result
    intro v mem
    rcases List.mem_append.1 mem with first | rest
    · exact all _ (List.mem_cons_self _ _) v first
    · obtain ⟨x, mem_x, mem_v⟩ := List.mem_flatMap.1 rest
      exact all x (List.mem_cons_of_mem _ mem_x) v mem_v

theorem All.reversedAxes [Inhabited α] {x : ArrayD α} (all : x.All p) (fallback : p default) :
    x.reversedAxes.All p := by
  intro v mem
  obtain ⟨index, -, rfl⟩ := List.mem_map.1 mem
  exact (getD_mem_or_default _ _ _).elim (all _) fun same => by rw [same]; exact fallback

theorem All.intoShape [Inhabited α] {strides shape : List Nat} {x y : ArrayD α} (all : x.All p)
    (fallback : p default) (result : x.intoShape strides shape = .ok y) : y.All p := by
  unfold ArrayD.intoShape at result
  split_ifs at result <;> cases result
  · exact all
  · exact All.reversedAxes (x := ⟨_, _, _⟩) (all.reversedAxes fallback) fallback

theorem All.intoDiag [Inhabited α] {x : ArrayD α} (all : x.All p) (fallback : p default) :
    x.intoDiag.All p := by
  intro v mem
  obtain ⟨i, -, rfl⟩ := List.mem_map.1 mem
  exact (getD_mem_or_default _ _ _).elim (all _) fun same => by rw [same]; exact fallback

theorem foldlM_insertAxis_elems : ∀ (axes : List Nat) {x y : ArrayD α},
    axes.foldlM insertAxis x = .ok y → y.elems = x.elems
  | [], _, _, result => by cases result; rfl
  | axis :: rest, x, y, result => by
    rw [List.foldlM_cons] at result
    cases inserted : insertAxis x axis with
    | error failure => rw [inserted] at result; cases result
    | ok x' =>
      rw [inserted] at result
      have kept : x'.elems = x.elems := by
        unfold insertAxis at inserted
        split at inserted <;> cases inserted
        rfl
      exact (foldlM_insertAxis_elems rest result).trans kept

theorem All.expandDims {axes : List Nat} {x y : ArrayD α} (all : x.All p)
    (result : ArrayD.expandDims axes x = .ok y) : y.All p := by
  rw [All, foldlM_insertAxis_elems _ result]
  exact all

end All

end ArrayD

end Moose.Host

import Moose.Host.Ring

/-!
# Kernels that move elements

`index_axis`, `into_diag`, `into_shape` and `broadcast` build their result out
of their operand's elements: which element lands where, and whether the kernel
fails, is decided by the operand's shape alone, a gather (`Moves`). Such a
kernel commutes with every element-wise map and with every element-by-element
operation on operands of one shape, failures included. So an element-wise
ring kernel (`RingNegOp`, `RingShlOp`, `RingShrOp`, `SignOp`) or a binary one
on operands of one shape (`RingAddOp`, `RingMulOp`, …) can be moved across
`IndexAxisOp`, `HostDiagOp` or `BroadcastOp` and the array computed stays the
same, and a bit operation across their bit kernels.

The array, not its memory layout: `into_shape` reads the strides as well, and
gathers by shape alone only from an array in standard layout. The diagonal
`into_diag` gives steps through memory by the sum of its operand's strides, so
`HostReshapeOp` refuses it, while an element-wise map of it is a fresh copy in
standard layout, which it reshapes. After `HostDiagOp`, reshaping does not
commute with element-wise kernels.

`concatenate` reads its elements out of several operands, and commutes with
an element-wise map of them all. What it is for is stated through
`index_axis`: the sub-array of the result at each coordinate of the joined
axis is the sub-array of the operand that holds the coordinate, and along the
first axis the result's elements are the operands' elements in turn.
-/

namespace Moose.Host

namespace ArrayD

variable {α : Type}

/-- Where a kernel that moves elements takes them from, given its operand's
shape: the failure, or the shape of the result and, for each of its elements in
row-major order, the position of the operand's element it copies. -/
abbrev Gather := List Nat → Except Failure (List Nat × List Nat)

/-- `kernel` moves elements by `gather`: every position the gather names lies
in the operand, and on every array the kernel fails as the gather does or
returns the gather's shape holding the elements at the gather's positions. -/
structure Moves [Inhabited α] (gather : Gather) (kernel : ArrayD α → Except Failure (ArrayD α)) : Prop where
  within : ∀ {shape result positions}, gather shape = .ok (result, positions) → ∀ p ∈ positions, p < shape.prod
  moves : ∀ x, match gather x.shape with
    | .error failure => kernel x = .error failure
    | .ok (result, positions) =>
      ∃ y, kernel x = .ok y ∧ y.shape = result ∧ y.elems = positions.map (x.elems.getD · default)

theorem getD_map_of_lt (g : α → α) {l : List α} {p : Nat} (within : p < l.length) (fallback : α) :
    (l.map g).getD p fallback = g (l.getD p fallback) := by
  rw [List.getD_eq_getElem _ _ (by simpa using within), List.getD_eq_getElem _ _ within, List.getElem_map]

theorem getD_zipWith_of_lt (f : α → α → α) {l l' : List α} {p : Nat} (within : p < l.length)
    (within' : p < l'.length) (fallback : α) :
    (List.zipWith f l l').getD p fallback = f (l.getD p fallback) (l'.getD p fallback) := by
  rw [List.getD_eq_getElem _ _ (by simpa using ⟨within, within'⟩), List.getD_eq_getElem _ _ within,
    List.getD_eq_getElem _ _ within', List.getElem_zipWith]

namespace Moves

variable [Inhabited α] {gather : Gather} {kernel : ArrayD α → Except Failure (ArrayD α)}

/-- A kernel that moves elements commutes with every element-wise map. -/
theorem mapv (moves : Moves gather kernel) (g : α → α) (x : ArrayD α) :
    kernel (x.mapv g) = (kernel x).map (ArrayD.mapv g) := by
  have own := moves.moves x
  have mapped := moves.moves (x.mapv g)
  rw [mapv_shape] at mapped
  cases placed : gather x.shape with
  | error failure =>
    rw [placed] at own mapped
    dsimp only at own mapped
    rw [mapped, own]
    rfl
  | ok placement =>
    obtain ⟨result, positions⟩ := placement
    rw [placed] at own mapped
    obtain ⟨y, moved, shaped, elems⟩ := own
    obtain ⟨y', moved', shaped', elems'⟩ := mapped
    rw [moved', moved]
    refine congrArg Except.ok (ArrayD.ext (by rw [shaped', mapv_shape, shaped]) ?_)
    rw [elems', mapv_elems, mapv_elems, elems, List.map_map]
    exact List.map_congr_left fun p mem =>
      getD_map_of_lt g ((moves.within placed p mem).trans_eq x.elems_length.symm) default

/-- A kernel that moves elements commutes with every element-by-element
operation on operands of one shape. -/
theorem zip (moves : Moves gather kernel) (f : α → α → α) {x y : ArrayD α} (same : x.shape = y.shape) :
    (do let z ← zipBroadcast f x y; kernel z) = (do let a ← kernel x; let b ← kernel y; zipBroadcast f a b) := by
  rw [zipBroadcast_of_same f same]
  show kernel (zipSame f x y same) = _
  have own := moves.moves x
  have own' := moves.moves y
  have zipped := moves.moves (zipSame f x y same)
  rw [zipSame_shape] at zipped
  rw [← same] at own'
  cases placed : gather x.shape with
  | error failure =>
    rw [placed] at own own' zipped
    dsimp only at own own' zipped
    rw [zipped, own]
    rfl
  | ok placement =>
    obtain ⟨result, positions⟩ := placement
    rw [placed] at own own' zipped
    obtain ⟨a, moved, shaped, elems⟩ := own
    obtain ⟨b, moved', shaped', elems'⟩ := own'
    obtain ⟨c, moved'', shaped'', elems''⟩ := zipped
    rw [moved'', moved, moved']
    show Except.ok c = zipBroadcast f a b
    rw [zipBroadcast_of_same f (shaped.trans shaped'.symm)]
    refine congrArg Except.ok (ArrayD.ext (by rw [shaped'', zipSame_shape, shaped]) ?_)
    rw [elems'', zipSame_elems, zipSame_elems, elems, elems', List.zipWith_map, List.zipWith_same]
    exact List.map_congr_left fun p mem =>
      have fits := moves.within placed p mem
      getD_zipWith_of_lt f (fits.trans_eq x.elems_length.symm) (fits.trans_eq (same ▸ y.elems_length.symm)) default

end Moves

/-! ## Gathers of the kernels that move elements -/

/-- Inserting a coordinate at an axis of an index of the shape without that
axis gives an index of the shape. -/
theorem insertIdx_mem_indices : ∀ {shape position : List Nat} {axis index length : Nat},
    shape[axis]? = some length → index < length → position ∈ indices (shape.eraseIdx axis) →
      position.insertIdx axis index ∈ indices shape
  | [], _, _, _, _, found, _, _ => nomatch found
  | length :: shape, position, 0, index, _, found, within, mem => by
    rw [List.getElem?_cons_zero, Option.some.injEq] at found
    subst found
    rw [mem_indices_iff] at mem ⊢
    exact .cons within mem
  | length :: shape, position, axis + 1, index, length', found, within, mem => by
    rw [List.getElem?_cons_succ] at found
    rw [mem_indices_iff] at mem
    cases mem with
    | cons first rest =>
      rw [List.insertIdx_succ_cons, mem_indices_iff]
      exact .cons first (mem_indices_iff.1 (insertIdx_mem_indices found within (mem_indices_iff.2 rest)))

/-- The gather of `index_axis(Axis(axis), index)`. -/
def indexAxisGather (axis index : Nat) : Gather := fun shape =>
  match shape[axis]? with
  | none => .error (.panic (indexOutOfBounds shape.length axis))
  | some length =>
    if index < length then
      .ok (shape.eraseIdx axis,
        (indices (shape.eraseIdx axis)).map fun position => offset shape (position.insertIdx axis index))
    else .error (.panic (collapseAxisFailed index length shape))

theorem moves_indexAxis [Inhabited α] (axis index : Nat) :
    Moves (α := α) (indexAxisGather axis index) (indexAxis axis index) where
  within {shape result positions} placed p mem := by
    unfold indexAxisGather at placed
    split at placed
    · cases placed
    · rename_i length found
      split_ifs at placed with within
      cases placed
      obtain ⟨position, mem', rfl⟩ := List.mem_map.1 mem
      exact offset_lt (insertIdx_mem_indices found within mem')
  moves x := by
    unfold indexAxisGather indexAxis
    cases x.shape[axis]? with
    | none => rfl
    | some length =>
      dsimp only
      split_ifs
      · exact ⟨_, rfl, rfl, by rw [List.map_map]; rfl⟩
      · rfl

/-- The gather of `into_diag`: the offsets of `[i, i, …, i]`. -/
def diagGather : Gather := fun shape =>
  .ok ([shape.min?.getD 1], (List.range (shape.min?.getD 1)).map fun i => offset shape (shape.map fun _ => i))

theorem moves_intoDiag [Inhabited α] : Moves (α := α) diagGather fun x => .ok x.intoDiag where
  within {shape result positions} placed p mem := by
    cases placed
    obtain ⟨i, within, rfl⟩ := List.mem_map.1 mem
    refine offset_lt (mem_indices_iff.2 (List.forall₂_map_left_iff.2 (List.forall₂_same.2 fun length mem => ?_)))
    cases least : shape.min? with
    | none => simp_all
    | some least' =>
      rw [least, Option.getD_some, List.mem_range] at within
      exact within.trans_le ((List.min?_eq_some_iff'.1 least).2 length mem)
  moves x := ⟨_, rfl, rfl, by rw [List.map_map]; rfl⟩

/-- The gather of `into_shape(target)` on an array in standard layout: the
elements in their order, under a shape of the same size. -/
def reshapeGather (target : List Nat) : Gather := fun shape =>
  if shape.prod = target.prod then .ok (target, List.range shape.prod)
  else .error (.error (.kernelError "ShapeError/IncompatibleShape: incompatible shapes"))

/-- The gather of `broadcast(target)`: each element read where `broadcastAt`
reads it. -/
def broadcastGather (target : List Nat) : Gather := fun shape =>
  if Stretches shape target then .ok (target, (indices target).map fun index => offset shape (reduceIndex shape index))
  else .error (.panic unwrapNone)

/-! ## Concatenation -/

/-- The element of a concatenation along `axis` at coordinate `coordinate` of
that axis and coordinates `rest` of the others: read from the array whose
stretch of the axis holds the coordinate, at the coordinate less the lengths of
the arrays before it. -/
def concatRead [Inhabited α] (axis : Nat) : List (ArrayD α) → Nat → List Nat → α
  | [], _, _ => default
  | array :: arrays, coordinate, rest =>
    if coordinate < array.shape.getD axis 0 then
      array.elems.getD (offset array.shape (rest.insertIdx axis coordinate)) default
    else concatRead axis arrays (coordinate - array.shape.getD axis 0) rest

/-- `ndarray::concatenate(Axis(axis), arrays)`: the arrays joined along an
axis, their other axes equal. No arrays is an unsupported operation, an axis
past the first array's rank is out of bounds, and an array of another rank or
of other lengths off the axis makes the shapes incompatible. -/
def concatenate [Inhabited α] (axis : Nat) (arrays : List (ArrayD α)) : Except String (ArrayD α) :=
  match arrays with
  | [] => .error "ShapeError/Unsupported: unsupported operation"
  | first :: others =>
    if axis < first.shape.length then
      if ∀ array ∈ others, array.shape.length = first.shape.length ∧
          array.shape.eraseIdx axis = first.shape.eraseIdx axis then
        .ok (tabulate (first.shape.set axis ((first :: others).map fun array => array.shape.getD axis 0).sum)
          fun index => concatRead axis (first :: others) (index.getD axis 0) (index.eraseIdx axis))
      else .error "ShapeError/IncompatibleShape: incompatible shapes"
    else .error "ShapeError/OutOfBounds: out of bounds indexing"

/-- The arrays before the one at position `k` end, along the axis, where it
starts; it ends within the concatenation. -/
theorem sum_take_add_le {f : ArrayD α → Nat} : ∀ {arrays : List (ArrayD α)} {k : Nat} {x : ArrayD α},
    arrays[k]? = some x → ((arrays.take k).map f).sum + f x ≤ (arrays.map f).sum
  | [], _, _, found => nomatch found
  | array :: arrays, 0, x, found => by
    rw [List.getElem?_cons_zero, Option.some.injEq] at found
    subst found
    simp
  | array :: arrays, k + 1, x, found => by
    rw [List.getElem?_cons_succ] at found
    have below := sum_take_add_le (f := f) found
    simp only [List.take_succ_cons, List.map_cons, List.sum_cons]
    omega

theorem concatRead_of_lt [Inhabited α] (axis : Nat) (rest : List Nat) :
    ∀ {arrays : List (ArrayD α)} {k j : Nat} {x : ArrayD α}, arrays[k]? = some x → j < x.shape.getD axis 0 →
      concatRead axis arrays (((arrays.take k).map fun array => array.shape.getD axis 0).sum + j) rest =
        x.elems.getD (offset x.shape (rest.insertIdx axis j)) default
  | [], _, _, _, found, _ => nomatch found
  | array :: arrays, 0, j, x, found, within => by
    rw [List.getElem?_cons_zero, Option.some.injEq] at found
    subst found
    simp only [List.take_zero, List.map_nil, List.sum_nil, Nat.zero_add]
    rw [concatRead, if_pos within]
  | array :: arrays, k + 1, j, x, found, within => by
    rw [List.getElem?_cons_succ] at found
    have past : ¬ ((array :: arrays).take (k + 1) |>.map fun array => array.shape.getD axis 0).sum + j <
        array.shape.getD axis 0 := by
      simp only [List.take_succ_cons, List.map_cons, List.sum_cons]
      omega
    rw [concatRead, if_neg past]
    simp only [List.take_succ_cons, List.map_cons, List.sum_cons, Nat.add_assoc, Nat.add_sub_cancel_left]
    exact concatRead_of_lt axis rest found within

theorem getD_insertIdx_self {position : List Nat} {axis : Nat} (within : axis ≤ position.length) (i : Nat) :
    (position.insertIdx axis i).getD axis 0 = i := by
  rw [List.getD_eq_getElem _ _ (by rw [List.length_insertIdx _ _ within]; omega), List.getElem_insertIdx_self _ _ _ within]

theorem getD_set_self {shape : List Nat} {axis : Nat} (ranked : axis < shape.length) (length : Nat) :
    (shape.set axis length).getD axis 0 = length := by
  rw [List.getD_eq_getElem?_getD, List.getElem?_set_self ranked, Option.getD_some]

theorem eraseIdx_set_self : ∀ (shape : List Nat) (axis length : Nat),
    (shape.set axis length).eraseIdx axis = shape.eraseIdx axis
  | [], _, _ => rfl
  | _ :: _, 0, _ => rfl
  | first :: shape, axis + 1, length => by
    rw [List.set_cons_succ, List.eraseIdx_cons_succ, List.eraseIdx_cons_succ, eraseIdx_set_self]

/-- Taking the sub-array of a tabulation at an index along an axis tabulates
the read with the coordinate inserted. -/
theorem indexAxis_tabulate [Inhabited α] {shape : List Nat} {axis index length : Nat} (g : List Nat → α)
    (found : shape[axis]? = some length) (within : index < length) :
    indexAxis axis index (tabulate shape g) =
      .ok (tabulate (shape.eraseIdx axis) fun position => g (position.insertIdx axis index)) := by
  unfold indexAxis
  split
  · rename_i missing
    exact absurd (missing.symm.trans found) nofun
  · rename_i length' found'
    obtain rfl : length' = length := Option.some.inj (found'.symm.trans found)
    rw [if_pos within]
    exact congrArg Except.ok (tabulate_congr fun position mem =>
      getD_map_indices g default (insertIdx_mem_indices found within mem))

/-- Arrays that `concatenate` accepts all have the axis, and the first one's
lengths off it. -/
theorem shaped_of_compatible {axis : Nat} {first : ArrayD α} {others : List (ArrayD α)}
    (ranked : axis < first.shape.length)
    (compatible : ∀ array ∈ others, array.shape.length = first.shape.length ∧
      array.shape.eraseIdx axis = first.shape.eraseIdx axis) :
    ∀ array ∈ first :: others, axis < array.shape.length ∧ array.shape.eraseIdx axis = first.shape.eraseIdx axis
  | _, .head _ => ⟨ranked, rfl⟩
  | array, .tail _ mem => ⟨(compatible array mem).1 ▸ ranked, (compatible array mem).2⟩

/-- Where an array of a concatenation lies along the axis, the sub-arrays of
the concatenation are the array's own. -/
theorem indexAxis_concatenate [Inhabited α] {axis : Nat} {arrays : List (ArrayD α)} {joined : ArrayD α}
    (concatenated : concatenate axis arrays = .ok joined) {k j : Nat} {x : ArrayD α} (found : arrays[k]? = some x)
    (within : j < x.shape.getD axis 0) :
    indexAxis axis (((arrays.take k).map fun array => array.shape.getD axis 0).sum + j) joined =
      indexAxis axis j x := by
  obtain _ | ⟨first, others⟩ := arrays
  · cases concatenated
  dsimp only [concatenate] at concatenated
  split_ifs at concatenated with ranked compatible
  cases concatenated
  obtain ⟨ranked', same⟩ := shaped_of_compatible ranked compatible x (List.getElem?_mem found)
  have length : x.shape[axis]? = some (x.shape.getD axis 0) := by
    rw [List.getD_eq_getElem _ _ ranked', List.getElem?_eq_getElem ranked']
  have ends := sum_take_add_le (f := fun array : ArrayD α => array.shape.getD axis 0) found
  dsimp only at ends
  conv => rhs; rw [← tabulate_broadcastAt x]
  rw [indexAxis_tabulate _ (List.getElem?_set_self ranked) (by omega), indexAxis_tabulate _ length within,
    eraseIdx_set_self, ← same]
  refine congrArg Except.ok (tabulate_congr fun position mem => ?_)
  have short : axis ≤ position.length := by
    rw [(mem_indices_iff.1 mem).length_eq, List.length_eraseIdx, if_pos ranked']
    omega
  rw [getD_insertIdx_self short, List.eraseIdx_insertIdx, concatRead_of_lt axis position found within,
    broadcastAt_eq, reduceIndex_self (insertIdx_mem_indices length within mem)]

theorem concatenate_ok_iff [Inhabited α] (axis : Nat) (arrays : List (ArrayD α)) :
    (∃ joined, concatenate axis arrays = .ok joined) ↔ ∃ first others, arrays = first :: others ∧
      axis < first.shape.length ∧ ∀ array ∈ others, array.shape.length = first.shape.length ∧
        array.shape.eraseIdx axis = first.shape.eraseIdx axis := by
  cases arrays with
  | nil => exact iff_of_false (fun ⟨_, failed⟩ => nomatch failed) fun ⟨_, _, found, _⟩ => nomatch found
  | cons first others =>
    dsimp only [concatenate]
    split_ifs with ranked compatible
    · exact iff_of_true ⟨_, rfl⟩ ⟨first, others, rfl, ranked, compatible⟩
    all_goals
      refine iff_of_false (fun ⟨_, failed⟩ => nomatch failed) ?_
      rintro ⟨_, _, found, ranked', compatible'⟩
      cases found
    · exact compatible compatible'
    · exact ranked ranked'

theorem concatenate_length [Inhabited α] {axis : Nat} {arrays : List (ArrayD α)} {joined : ArrayD α}
    (concatenated : concatenate axis arrays = .ok joined) :
    joined.shape.getD axis 0 = (arrays.map fun array => array.shape.getD axis 0).sum := by
  obtain _ | ⟨first, others⟩ := arrays
  · cases concatenated
  dsimp only [concatenate] at concatenated
  split_ifs at concatenated with ranked
  cases concatenated
  rw [tabulate_shape, getD_set_self ranked]

/-- Along the first axis, the rows of a concatenation are the rows of its
arrays, one array after another. -/
theorem flatMap_concatRead_zero [Inhabited α] {rest : List Nat} : ∀ {arrays : List (ArrayD α)},
    (∀ array ∈ arrays, ∃ length, array.shape = length :: rest) →
      (List.range (arrays.map fun array => array.shape.getD 0 0).sum).flatMap
        (fun i => (indices rest).map (concatRead 0 arrays i)) = arrays.flatMap ArrayD.elems
  | [], _ => rfl
  | array :: arrays, rows => by
    obtain ⟨length, shaped⟩ := rows array (List.mem_cons_self _ _)
    have first : array.shape.getD 0 0 = length := by rw [shaped]; rfl
    have own : (List.range length).flatMap (fun i => (indices rest).map (concatRead 0 (array :: arrays) i)) =
        array.elems := by
      calc _ = (indices array.shape).map (fun index => array.elems.getD (offset array.shape index) default) := by
            rw [shaped, indices, List.map_flatMap]
            refine List.flatMap_congr fun i mem => ?_
            rw [List.map_map]
            refine List.map_congr_left fun position _ => ?_
            rw [concatRead, if_pos (first ▸ List.mem_range.1 mem), ← shaped]
            rfl
        _ = ((indices array.shape).map (offset array.shape)).map fun p => array.elems.getD p default :=
            (List.map_map (fun p => array.elems.getD p default) (offset array.shape) _).symm
        _ = array.elems := by rw [map_offset_indices, ← array.elems_length, map_getD_range]
    rw [List.map_cons, List.sum_cons, first, List.range_add, List.flatMap_append, own, List.flatMap_map,
      List.flatMap_cons, ← flatMap_concatRead_zero fun other mem => rows other (List.mem_cons_of_mem _ mem)]
    congr 1
    refine List.flatMap_congr fun i _ => List.map_congr_left fun position _ => ?_
    rw [concatRead, if_neg (by omega), first, Nat.add_sub_cancel_left]

/-- Joined along the first axis, the elements of a concatenation are the
arrays' elements, one array after another. -/
theorem concatenate_zero_elems [Inhabited α] {arrays : List (ArrayD α)} {joined : ArrayD α}
    (concatenated : concatenate 0 arrays = .ok joined) : joined.elems = arrays.flatMap ArrayD.elems := by
  obtain _ | ⟨first, others⟩ := arrays
  · cases concatenated
  dsimp only [concatenate] at concatenated
  split_ifs at concatenated with ranked compatible
  cases concatenated
  obtain ⟨length, rest, shaped⟩ := List.exists_cons_of_length_pos ranked
  have rows : ∀ array ∈ first :: others, ∃ length, array.shape = length :: rest := by
    rintro array (_ | ⟨_, mem⟩)
    · exact ⟨length, shaped⟩
    · obtain ⟨long, erased⟩ := compatible array mem
      rw [shaped] at long erased
      cases own : array.shape with
      | nil => simp [own] at long
      | cons length' rest' =>
        rw [own] at erased
        exact ⟨length', congrArg (length' :: ·) erased⟩
  rw [← flatMap_concatRead_zero rows, tabulate_elems, shaped, List.set_cons_zero, indices, List.map_flatMap]
  exact List.flatMap_congr fun i _ => List.map_map _ _ _

/-- Dropping an axis from an index of a shape gives an index of the shape
without that axis. -/
theorem eraseIdx_mem_indices {shape index : List Nat} (axis : Nat) (mem : index ∈ indices shape) :
    index.eraseIdx axis ∈ indices (shape.eraseIdx axis) := by
  rw [mem_indices_iff] at mem ⊢
  induction mem generalizing axis with
  | nil => exact .nil
  | cons head _ ih =>
    cases axis with
    | zero => assumption
    | succ axis => exact .cons head (ih axis)

theorem getD_lt_of_mem_indices {shape index : List Nat} {axis : Nat} (mem : index ∈ indices shape)
    (ranked : axis < shape.length) : index.getD axis 0 < shape.getD axis 0 := by
  have all := mem_indices_iff.1 mem
  have ranked' : axis < index.length := all.length_eq ▸ ranked
  rw [List.getD_eq_getElem _ _ ranked, List.getD_eq_getElem _ _ ranked']
  exact all.get ranked' ranked

/-- Within the concatenation, a concatenation of mapped arrays reads the map of
what the concatenation reads. -/
theorem concatRead_mapv [Inhabited α] (g : α → α) {axis : Nat} {shape rest : List Nat}
    (mem : rest ∈ indices (shape.eraseIdx axis)) : ∀ {arrays : List (ArrayD α)} {coordinate : Nat},
      (∀ array ∈ arrays, axis < array.shape.length ∧ array.shape.eraseIdx axis = shape.eraseIdx axis) →
      coordinate < (arrays.map fun array => array.shape.getD axis 0).sum →
      concatRead axis (arrays.map (ArrayD.mapv g)) coordinate rest = g (concatRead axis arrays coordinate rest)
  | [], _, _, within => absurd within (Nat.not_lt_zero _)
  | array :: arrays, coordinate, shaped, within => by
    obtain ⟨ranked, same⟩ := shaped array (List.mem_cons_self _ _)
    simp only [List.map_cons, List.sum_cons] at within ⊢
    rw [concatRead, concatRead, mapv_shape]
    split_ifs with here
    · have length : array.shape[axis]? = some (array.shape.getD axis 0) := by
        rw [List.getD_eq_getElem _ _ ranked, List.getElem?_eq_getElem ranked]
      rw [mapv_elems, getD_map_of_lt g ((offset_lt (insertIdx_mem_indices length here (same ▸ mem))).trans_eq
        array.elems_length.symm)]
    · exact concatRead_mapv g mem (fun other mem' => shaped other (List.mem_cons_of_mem _ mem')) (by omega)

/-- Concatenating mapped arrays is mapping their concatenation, failures
included. -/
theorem concatenate_mapv [Inhabited α] (g : α → α) (axis : Nat) (arrays : List (ArrayD α)) :
    concatenate axis (arrays.map (ArrayD.mapv g)) = (concatenate axis arrays).map (ArrayD.mapv g) := by
  cases arrays with
  | nil => rfl
  | cons first others =>
    simp only [List.map_cons, concatenate, mapv_shape, List.forall_mem_map, List.map_map, Function.comp_def]
    split_ifs with ranked compatible
    · refine congrArg Except.ok (ArrayD.ext rfl ?_)
      rw [mapv_elems, tabulate_elems, tabulate_elems, List.map_map]
      refine List.map_congr_left fun index mem => ?_
      have within := getD_lt_of_mem_indices mem (by rwa [List.length_set])
      rw [getD_set_self ranked] at within
      have rest := eraseIdx_mem_indices axis mem
      rw [eraseIdx_set_self] at rest
      exact concatRead_mapv g rest (shaped_of_compatible ranked compatible) within
    all_goals rfl

end ArrayD

open ArrayD

/-! ## The kernels on ring tensors -/

section Kernels

variable {w : Nat}

/-- `IndexAxisOp::host_ring_kernel`. -/
def IndexAxisOp.hostRingKernel (axis index : Nat) (x : HostRingTensor w) : Except Failure (HostRingTensor w) :=
  ArrayD.indexAxis axis index x

/-- `HostDiagOp::ring_kernel`. -/
def HostDiagOp.ringKernel (x : HostRingTensor w) : Except Failure (HostRingTensor w) :=
  .ok x.intoDiag

/-- `ConcatOp::ring_kernel`. -/
def ConcatOp.ringKernel (axis : Nat) (xs : List (HostRingTensor w)) : Except Failure (HostRingTensor w) :=
  orKernelError (ArrayD.concatenate axis xs)

/-- `ExpandDimsOp::host_ring_kernel`. -/
def ExpandDimsOp.hostRingKernel (axis : List Nat) (x : HostRingTensor w) : Except Failure (HostRingTensor w) :=
  x.expandDims axis

end Kernels

section Commuting

variable {w : Nat}

/-- On a tensor in standard layout, `HostReshapeOp` moves elements by shape. -/
theorem HostReshapeOp.moves_of_standard (target : HostShape) :
    Moves (reshapeGather target) fun x : HostRingTensor w => HostReshapeOp.ringKernel x (defaultStrides x.shape) target where
  within {shape result positions} placed p mem := by
    unfold reshapeGather at placed
    split_ifs at placed
    cases placed
    exact List.mem_range.1 mem
  moves x := by
    unfold reshapeGather HostReshapeOp.ringKernel
    split_ifs with same
    · rw [intoShape_of_standard (isStandardLayout_defaultStrides x.shape) same]
      exact ⟨_, rfl, rfl, by dsimp only; rw [← x.elems_length, map_getD_range]⟩
    · rw [intoShape_of_ne same]
      rfl

theorem BroadcastOp.moves (target : HostShape) :
    Moves (broadcastGather target) (BroadcastOp.hostRingKernel (w := w) target) where
  within {shape result positions} placed p mem := by
    unfold broadcastGather at placed
    split_ifs at placed with stretched
    cases placed
    obtain ⟨index, mem', rfl⟩ := List.mem_map.1 mem
    exact offset_lt (reduceIndex_mem stretched mem')
  moves x := by
    unfold broadcastGather
    rw [BroadcastOp.hostRingKernel_eq]
    split_ifs
    · exact ⟨_, rfl, rfl, by rw [tabulate_elems, List.map_map]; rfl⟩
    · rfl

/-- `kernel` commutes with every element-wise map, and with every
element-by-element operation on operands of one shape. -/
def CommutesWithElementwise (kernel : HostRingTensor w → Except Failure (HostRingTensor w)) : Prop :=
  (∀ (g : BitVec w → BitVec w) (x : HostRingTensor w), kernel (x.mapv g) = (kernel x).map (ArrayD.mapv g)) ∧
  ∀ (f : BitVec w → BitVec w → BitVec w) (x y : HostRingTensor w), x.shape = y.shape →
    (do let z ← zipBroadcast f x y; kernel z) = (do let a ← kernel x; let b ← kernel y; zipBroadcast f a b)

theorem ArrayD.Moves.commutes {gather : Gather} {kernel : HostRingTensor w → Except Failure (HostRingTensor w)}
    (moves : Moves gather kernel) : CommutesWithElementwise kernel :=
  ⟨moves.mapv, fun f _ _ same => moves.zip f same⟩

theorem ConcatOp.ringKernel_mapv (g : BitVec w → BitVec w) (axis : Nat) (xs : List (HostRingTensor w)) :
    ConcatOp.ringKernel axis (xs.map (ArrayD.mapv g)) = (ConcatOp.ringKernel axis xs).map (ArrayD.mapv g) := by
  unfold ConcatOp.ringKernel
  rw [concatenate_mapv]
  cases concatenate axis xs <;> rfl

/-- `IndexAxisOp`, `HostDiagOp` and `BroadcastOp` on ring tensors, and
`HostReshapeOp` on ring tensors in standard layout, which `mapv` keeps, commute
with every element-wise map (`RingNegOp`, `RingShlOp`, `RingShrOp`, `SignOp`,
…) and with every element-by-element operation on operands of one shape
(`RingAddOp`, `RingSubOp`, `RingMulOp`, …), and `ConcatOp` with every
element-wise map of all its operands, their failures included. The bit
kernels of `IndexAxisOp` and `HostDiagOp`, and that of `HostReshapeOp` in
standard layout, commute in the same way with the bit operations (`BitNegOp`,
`BitXorOp`, `BitAndOp`, …). -/
theorem movement_kernels_commute_with_elementwise_kernels :
    (∀ axis index, CommutesWithElementwise (IndexAxisOp.hostRingKernel (w := w) axis index)) ∧
    CommutesWithElementwise (HostDiagOp.ringKernel (w := w)) ∧
    (∀ shape, mapStrides shape (defaultStrides shape) = defaultStrides shape) ∧
    (∀ target, CommutesWithElementwise fun x : HostRingTensor w =>
      HostReshapeOp.ringKernel x (defaultStrides x.shape) target) ∧
    (∀ target, CommutesWithElementwise (BroadcastOp.hostRingKernel (w := w) target)) ∧
    (∀ (g : BitVec w → BitVec w) axis (xs : List (HostRingTensor w)),
      ConcatOp.ringKernel axis (xs.map (ArrayD.mapv g)) = (ConcatOp.ringKernel axis xs).map (ArrayD.mapv g)) ∧
    (∀ axis index, CommutesWithElementwise (IndexAxisOp.hostBitKernel axis index)) ∧
    CommutesWithElementwise HostDiagOp.bitKernel ∧
    ∀ target, CommutesWithElementwise fun x : HostBitTensor => HostReshapeOp.bitKernel x (defaultStrides x.shape) target :=
  ⟨fun axis index => (moves_indexAxis axis index).commutes, moves_intoDiag.commutes, mapStrides_defaultStrides,
    fun target => (HostReshapeOp.moves_of_standard target).commutes, fun target => (BroadcastOp.moves target).commutes,
    ConcatOp.ringKernel_mapv, fun axis index => (moves_indexAxis axis index).commutes, moves_intoDiag.commutes,
    fun target => (HostReshapeOp.moves_of_standard (w := 8) target).commutes⟩

end Commuting

section Diagonals

variable {w : Nat}

/-- A one-axis array longer than one is in standard layout exactly at stride
one. -/
theorem isStandardLayout_single {length : Nat} (long : 2 ≤ length) (stride : Nat) :
    isStandardLayout [length] [stride] = (stride == 1) := by
  have : length ≠ 0 := by omega
  have : length ≠ 1 := by omega
  simp [isStandardLayout, defaultStrides, rowMajorStrides, beq_false_of_ne, *]

/-- `map` copies a strided one-axis array into standard layout. -/
theorem mapStrides_single {length stride : Nat} (long : 2 ≤ length) (strided : stride ≠ 1) :
    mapStrides [length] [stride] = defaultStrides [length] := by
  have : length ≠ 0 := by omega
  simp [mapStrides, isContiguous, defaultStrides, rowMajorStrides, *]

/-- The diagonal of a tensor in standard layout with two axes or more, none of
them shorter than two, steps by two elements or more. -/
theorem two_le_sum_defaultStrides {shape : List Nat} (ranked : 2 ≤ shape.length)
    (long : ∀ length ∈ shape, 2 ≤ length) : 2 ≤ (defaultStrides shape).sum := by
  obtain ⟨first, second, rest, rfl⟩ : ∃ first second rest, shape = first :: second :: rest := by
    match shape, ranked with
    | first :: second :: rest, _ => exact ⟨first, second, rest, rfl⟩
  have nonzero : (first :: second :: rest).all (· != 0) := by
    simpa using fun length mem => (Nat.lt_of_lt_of_le two_pos (long length mem)).ne'
  have stepped : second ≤ second * rest.prod :=
    Nat.le_mul_of_pos_right second (List.prod_pos fun length mem => by have := long length (by simp [mem]); omega)
  have := long second (by simp)
  simp only [defaultStrides, if_pos nonzero, rowMajorStrides, List.prod_cons, List.sum_cons]
  omega

/-- The diagonal of a tensor with two axes or more, none of them shorter than
two, is as long as two or more. -/
theorem two_le_min {shape : List Nat} (ranked : 2 ≤ shape.length) (long : ∀ length ∈ shape, 2 ≤ length) :
    2 ≤ shape.min?.getD 1 := by
  cases least : shape.min? with
  | none =>
    rw [List.min?_eq_none_iff.1 least] at ranked
    cases ranked
  | some length => exact long length (List.min?_eq_some_iff'.1 least).1

/-- `HostReshapeOp` does not commute with the element-wise kernels after
`HostDiagOp`. The diagonal of a tensor in standard layout with two axes or
more, none of them shorter than two, steps through memory by the sum of the
tensor's strides, so `into_shape` refuses it, whatever the target of its size;
an element-wise map of the diagonal (`SignOp`'s `mapv`) is a fresh copy in
standard layout, which reshapes to the target with the copy's elements. -/
theorem reshape_refuses_diagonal_but_not_its_copy (x diagonal : HostRingTensor w) (g : BitVec w → BitVec w)
    (target : HostShape) (ranked : 2 ≤ x.shape.length) (long : ∀ length ∈ x.shape, 2 ≤ length)
    (diagonalized : HostDiagOp.ringKernel x = .ok diagonal) (sized : diagonal.shape.prod = target.prod) :
    HostReshapeOp.ringKernel diagonal (diagStrides (defaultStrides x.shape)) target =
      .error (.error (.kernelError "ShapeError/IncompatibleLayout: incompatible memory layout")) ∧
    ∃ reshaped, HostReshapeOp.ringKernel (diagonal.mapv g)
        (mapStrides diagonal.shape (diagStrides (defaultStrides x.shape))) target = .ok reshaped ∧
      reshaped.shape = target ∧ reshaped.elems = diagonal.elems.map g := by
  cases diagonalized
  have strided := two_le_sum_defaultStrides ranked long
  have long' := two_le_min ranked long
  have refused : isStandardLayout x.intoDiag.shape (diagStrides (defaultStrides x.shape)) = false := by
    rw [diagStrides, intoDiag_shape, isStandardLayout_single long', beq_false_of_ne (by omega)]
  have copied : mapStrides x.intoDiag.shape (diagStrides (defaultStrides x.shape)) = defaultStrides x.intoDiag.shape :=
    mapStrides_single long' (by omega)
  refine ⟨?_, ?_⟩
  · rw [HostReshapeOp.ringKernel, intoShape_of_one_axis (x := x.intoDiag) rfl refused sized]
    rfl
  · rw [HostReshapeOp.ringKernel, copied,
      intoShape_of_standard (x := x.intoDiag.mapv g) (isStandardLayout_defaultStrides x.intoDiag.shape) sized]
    exact ⟨_, rfl, rfl, rfl⟩

/-- The diagonal of a two-by-two tensor in standard layout steps by three, and
is refused; its signs are not. -/
theorem reshape_refuses_diagonal_of_square :
    HostReshapeOp.ringKernel (⟨[2, 2], [1, 2, 3, 4], rfl⟩ : HostRing64Tensor).intoDiag [3] [2] =
      .error (.error (.kernelError "ShapeError/IncompatibleLayout: incompatible memory layout")) ∧
    ∃ reshaped, HostReshapeOp.ringKernel ((⟨[2, 2], [1, 2, 3, 4], rfl⟩ : HostRing64Tensor).intoDiag.mapv signOf)
        (mapStrides [2] [3]) [2] = .ok reshaped ∧
      reshaped.shape = [2] ∧ reshaped.elems = [signOf 1, signOf 4] :=
  reshape_refuses_diagonal_but_not_its_copy ⟨[2, 2], [1, 2, 3, 4], rfl⟩ _ signOf [2] (by decide) (by decide) rfl rfl

end Diagonals

section Concatenating

variable {w : Nat}

end Concatenating

end Moose.Host

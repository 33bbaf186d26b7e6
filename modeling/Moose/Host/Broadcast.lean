import Moose.Host.Tensor

/-!
# Broadcasting

`ndarray` lines two shapes up from their last axes: an axis of length one
stretches to any length, and an array gains leading axes freely. A shape
stretches to another when the other has at least as many axes and, matched
from the last axis, each of its axes has the other's length or length one.
That is a partial order, and co-broadcasting (`coBroadcast`) is its least upper
bound: the common stretches of two shapes are exactly the stretches of their
co-broadcast, and there are none when it fails. So co-broadcasting is
commutative, and folding it over shapes does not depend on their order.

A read of an array through its broadcast (`broadcastAt`) lands in bounds, and
reading an array through a broadcast of a broadcast is reading it through the
last one. The arithmetic of `ndarray` is then one formula on all shapes:
element by element on the co-broadcast shape, each operand read through its
broadcast; its same-shape fast path computes the same thing. Every result of
that arithmetic, however nested, has this form (`Tabulates`): the panic when
the shapes of its arrays have no common stretch, and otherwise the pointwise
expression over their broadcast reads. Two expressions over the same arrays
with pointwise equal reads therefore give the same result, panics included.

`ArrayBase::broadcast`, the broadcast of one array to a given shape, is here
too, with the `upcast` check that decides whether it exists.
-/

namespace Moose.Host.ArrayD

/-! ## Shapes that stretch -/

/-- `shape` stretches to `target`, both written from their last axis: the
target has at least as many axes, and each axis of `shape` has the target's
length or length one. -/
def StretchesFromLast : List Nat → List Nat → Prop
  | [], _ => True
  | _ :: _, [] => False
  | length :: shape, length' :: target => (length = length' ∨ length = 1) ∧ StretchesFromLast shape target

/-- An array of `shape` broadcasts to `target`. -/
def Stretches (shape target : List Nat) : Prop := StretchesFromLast shape.reverse target.reverse

namespace StretchesFromLast

@[simp] theorem nil_left (target : List Nat) : StretchesFromLast [] target := trivial

@[simp] theorem cons_nil (length : Nat) (shape : List Nat) : ¬ StretchesFromLast (length :: shape) [] := id

@[simp] theorem cons_cons (length length' : Nat) (shape target : List Nat) :
    StretchesFromLast (length :: shape) (length' :: target) ↔
      (length = length' ∨ length = 1) ∧ StretchesFromLast shape target := Iff.rfl

theorem refl : ∀ shape : List Nat, StretchesFromLast shape shape
  | [] => trivial
  | _ :: shape => ⟨.inl rfl, refl shape⟩

theorem trans : ∀ {shape middle target : List Nat}, StretchesFromLast shape middle →
    StretchesFromLast middle target → StretchesFromLast shape target
  | [], _, _, _, _ => trivial
  | _ :: _, _ :: _, _ :: _, ⟨axis, rest⟩, ⟨axis', rest'⟩ => ⟨by omega, trans rest rest'⟩

theorem antisymm : ∀ {shape target : List Nat}, StretchesFromLast shape target →
    StretchesFromLast target shape → shape = target
  | [], [], _, _ => rfl
  | _ :: _, _ :: _, ⟨axis, rest⟩, ⟨axis', rest'⟩ => by rw [antisymm rest rest']; congr 1; omega

theorem length_le : ∀ {shape target : List Nat}, StretchesFromLast shape target → shape.length ≤ target.length
  | [], _, _ => Nat.zero_le _
  | _ :: _, _ :: _, ⟨_, rest⟩ => Nat.succ_le_succ (length_le rest)

end StretchesFromLast

namespace Stretches

theorem refl (shape : List Nat) : Stretches shape shape := StretchesFromLast.refl _

theorem trans {shape middle target : List Nat} (stretched : Stretches shape middle)
    (stretched' : Stretches middle target) : Stretches shape target :=
  StretchesFromLast.trans stretched stretched'

theorem antisymm {shape target : List Nat} (stretched : Stretches shape target)
    (stretched' : Stretches target shape) : shape = target :=
  List.reverse_injective (StretchesFromLast.antisymm stretched stretched')

theorem length_le {shape target : List Nat} (stretched : Stretches shape target) :
    shape.length ≤ target.length := by
  simpa using StretchesFromLast.length_le stretched

end Stretches

/-! ## Co-broadcasting is the least upper bound -/

/-- On one axis: the two lengths both stretch to `length''` exactly when their
common length does. -/
theorem common_stretches_iff (length length' length'' : Nat) :
    ((length = length'' ∨ length = 1) ∧ (length' = length'' ∨ length' = 1)) ↔
      ∃ common ∈ (if length = length' ∨ length' = 1 then some length else if length = 1 then some length' else none),
        common = length'' ∨ common = 1 := by
  split_ifs <;> simp <;> omega

theorem coBroadcast.fromLast_cons (length length' : Nat) (shape shape' : List Nat) :
    coBroadcast.fromLast (length :: shape) (length' :: shape') =
      (if length = length' ∨ length' = 1 then some length else if length = 1 then some length' else none).bind
        fun common => (coBroadcast.fromLast shape shape').map (common :: ·) := by
  simp only [coBroadcast.fromLast]
  split_ifs <;> cases coBroadcast.fromLast shape shape' <;> rfl

/-- The common stretches of two shapes, written from the last axis, are the
stretches of their co-broadcast; there are none when it fails. -/
theorem coBroadcast.fromLast_stretches_iff : ∀ (shape shape' target : List Nat),
    (StretchesFromLast shape target ∧ StretchesFromLast shape' target) ↔
      ∃ common ∈ coBroadcast.fromLast shape shape', StretchesFromLast common target
  | [], shape', target => by simp [coBroadcast.fromLast]
  | _ :: _, [], target => by simp [coBroadcast.fromLast]
  | length :: shape, length' :: shape', [] => by
    rw [coBroadcast.fromLast_cons]
    simp only [StretchesFromLast.cons_nil, false_and, false_iff, not_exists, not_and]
    intro common found
    simp only [Option.mem_def, Option.bind_eq_some, Option.map_eq_some'] at found
    obtain ⟨_, _, _, _, rfl⟩ := found
    exact id
  | length :: shape, length' :: shape', length'' :: target => by
    have axis := common_stretches_iff length length' length''
    have rest := coBroadcast.fromLast_stretches_iff shape shape' target
    rw [coBroadcast.fromLast_cons]
    revert axis rest
    generalize (if length = length' ∨ length' = 1 then some length else if length = 1 then some length' else none) = common
    generalize coBroadcast.fromLast shape shape' = found
    intro axis rest
    cases common with
    | none =>
      refine ⟨fun ⟨⟨first, _⟩, second, _⟩ => ?_, fun ⟨_, found, _⟩ => by cases found⟩
      obtain ⟨_, found, _⟩ := axis.1 ⟨first, second⟩
      cases found
    | some common =>
      cases found with
      | none =>
        refine ⟨fun ⟨⟨_, first⟩, _, second⟩ => ?_, fun ⟨_, found, _⟩ => by cases found⟩
        obtain ⟨_, found, _⟩ := rest.1 ⟨first, second⟩
        cases found
      | some found =>
        simp only [Option.some_bind, Option.map_some', Option.mem_def, Option.some.injEq, exists_eq_left,
          exists_eq_left', StretchesFromLast.cons_cons] at axis rest ⊢
        rw [and_and_and_comm, axis, rest]

/-- The common stretches of two shapes are the stretches of their co-broadcast;
there are none when it fails. -/
theorem coBroadcast_stretches_iff (shape shape' target : List Nat) :
    (Stretches shape target ∧ Stretches shape' target) ↔
      ∃ common ∈ coBroadcast shape shape', Stretches common target := by
  rw [Stretches, Stretches, coBroadcast.fromLast_stretches_iff, coBroadcast]
  simp [Stretches]

/-- Two optional shapes with the same stretches are equal. -/
theorem eq_of_stretches_iff {shape shape' : Option (List Nat)}
    (same : ∀ target, (∃ common ∈ shape, Stretches common target) ↔ ∃ common ∈ shape', Stretches common target) :
    shape = shape' := by
  cases shape with
  | none =>
    cases shape' with
    | none => rfl
    | some common' => exact absurd ((same common').2 ⟨common', rfl, .refl _⟩) (by simp)
  | some common =>
    obtain ⟨common', found, stretched⟩ := (same common).1 ⟨common, rfl, .refl _⟩
    obtain ⟨common'', found', stretched'⟩ := (same common').2 ⟨common', found, .refl _⟩
    cases found'
    rw [Option.mem_def.1 found, stretched.antisymm stretched']

theorem coBroadcast_stretches {shape shape' common : List Nat} (found : coBroadcast shape shape' = some common) :
    Stretches shape common ∧ Stretches shape' common :=
  (coBroadcast_stretches_iff shape shape' common).2 ⟨common, found, .refl _⟩

/-- A shape co-broadcasts with a shape it stretches to into that shape. -/
theorem coBroadcast_of_stretches {shape target : List Nat} (stretched : Stretches shape target) :
    coBroadcast shape target = some target :=
  eq_of_stretches_iff fun other => by
    rw [← coBroadcast_stretches_iff]
    exact ⟨fun ⟨_, stretched'⟩ => ⟨target, rfl, stretched'⟩,
      fun ⟨_, found, stretched'⟩ => by cases found; exact ⟨stretched.trans stretched', stretched'⟩⟩

/-- A shape without axes co-broadcasts with every shape into it. -/
@[simp] theorem coBroadcast_nil_left (shape : List Nat) : coBroadcast [] shape = some shape := by
  simp [coBroadcast, coBroadcast.fromLast]

theorem coBroadcast_comm (shape shape' : List Nat) : coBroadcast shape shape' = coBroadcast shape' shape :=
  eq_of_stretches_iff fun target => by rw [← coBroadcast_stretches_iff, ← coBroadcast_stretches_iff, and_comm]

/-- Co-broadcasting two optional shapes (`none` for a failure): its stretches
are the common stretches of the two. -/
theorem bind_coBroadcast_stretches_iff (shape shape' : Option (List Nat)) (target : List Nat) :
    (∃ common ∈ shape.bind fun s => shape'.bind (coBroadcast s ·), Stretches common target) ↔
      (∃ common ∈ shape, Stretches common target) ∧ ∃ common ∈ shape', Stretches common target := by
  cases shape with
  | none => simp
  | some shape =>
    cases shape' with
    | none => simp
    | some shape' =>
      rw [Option.some_bind, Option.some_bind, ← coBroadcast_stretches_iff]
      simp

@[simp] theorem exists_mem_some_stretches_iff (shape target : List Nat) :
    (∃ common ∈ some shape, Stretches common target) ↔ Stretches shape target := by
  simp

@[simp] theorem exists_mem_coBroadcast_stretches_iff (shape shape' target : List Nat) :
    (∃ common ∈ coBroadcast shape shape', Stretches common target) ↔
      Stretches shape target ∧ Stretches shape' target :=
  (coBroadcast_stretches_iff shape shape' target).symm

/-- Folding co-broadcast over shapes gives the least shape all of them
stretch to, and fails when they have no common stretch. -/
theorem foldlM_coBroadcast_stretches_iff (target : List Nat) :
    ∀ (shapes : List (List Nat)) (start : List Nat),
      (∃ common ∈ shapes.foldlM coBroadcast start, Stretches common target) ↔
        ∀ shape ∈ start :: shapes, Stretches shape target
  | [], start => by simp
  | shape :: shapes, start => by
    rw [List.foldlM_cons]
    show (∃ common ∈ (coBroadcast start shape).bind (shapes.foldlM coBroadcast ·), _) ↔ _
    cases found : coBroadcast start shape with
    | none =>
      have := (coBroadcast_stretches_iff start shape target).not.2 (by simp [found])
      simp only [Option.none_bind, List.mem_cons, forall_eq_or_imp]
      constructor
      · rintro ⟨_, ⟨⟩, _⟩
      · exact fun ⟨first, second, _⟩ => (this ⟨first, second⟩).elim
    | some common =>
      have joined : Stretches start target ∧ Stretches shape target ↔ Stretches common target := by
        rw [coBroadcast_stretches_iff, found]
        simp
      simp only [Option.some_bind, foldlM_coBroadcast_stretches_iff target shapes common, List.mem_cons,
        forall_eq_or_imp, ← joined, and_assoc]

/-- Folding co-broadcast over shapes does not depend on their order. -/
theorem foldlM_coBroadcast_perm {shapes shapes' : List (List Nat)} {start start' : List Nat}
    (perm : (start :: shapes).Perm (start' :: shapes')) :
    shapes.foldlM coBroadcast start = shapes'.foldlM coBroadcast start' :=
  eq_of_stretches_iff fun target => by
    rw [foldlM_coBroadcast_stretches_iff, foldlM_coBroadcast_stretches_iff]
    exact ⟨fun all shape mem => all shape (perm.mem_iff.2 mem), fun all shape mem => all shape (perm.mem_iff.1 mem)⟩

/-! ## Reads through a broadcast -/

variable {α : Type}

/-- An index of a shape has one coordinate per axis, each below the axis
length. -/
theorem mem_indices_iff {shape index : List Nat} : index ∈ indices shape ↔ List.Forall₂ (· < ·) index shape := by
  induction shape generalizing index with
  | nil => simp [indices]
  | cons length shape ih =>
    cases index with
    | nil => simp [indices]
    | cons i index =>
      simp only [indices, List.mem_flatMap, List.mem_range, List.mem_map, List.cons.injEq, ih, List.forall₂_cons]
      constructor
      · rintro ⟨_, within, _, rest, rfl, rfl⟩
        exact ⟨within, rest⟩
      · rintro ⟨within, rest⟩
        exact ⟨i, within, index, rest, rfl, rfl⟩

/-- An index of a shape that `shape` stretches to has a coordinate for each
axis of `shape`. -/
theorem Stretches.length_le_of_mem {shape target index : List Nat} (stretched : Stretches shape target)
    (mem : index ∈ indices target) : shape.length ≤ index.length :=
  stretched.length_le.trans (mem_indices_iff.1 mem).length_eq.ge

theorem offset_lt {shape index : List Nat} (mem : index ∈ indices shape) : offset shape index < shape.prod := by
  simpa [map_offset_indices] using List.mem_map_of_mem (offset shape) mem

/-- The row-major tabulation of a shape holds the entry of an index at the
index's offset. -/
theorem getD_map_indices {β : Type} (g : List Nat → β) (fallback : β) :
    ∀ {shape index : List Nat}, index ∈ indices shape →
      ((indices shape).map g).getD (offset shape index) fallback = g index
  | [], index, mem => by
    obtain rfl : index = [] := by simpa [indices] using mem
    rfl
  | length :: shape, index, mem => by
    obtain ⟨i, index, rfl⟩ : ∃ (i : Nat) (index' : List Nat), index = i :: index' := by
      cases mem_indices_iff.1 mem with
      | cons => exact ⟨_, _, rfl⟩
    obtain ⟨within, mem'⟩ : i < length ∧ index ∈ indices shape := by
      simpa [mem_indices_iff] using mem
    have read := getD_flatMap_uniform (l := List.range length) (f := fun j => (indices shape).map fun r => g (j :: r))
      (fun _ _ => by simp) (by simpa using within) (offset_lt mem') fallback
    simp only [List.getElem_range] at read
    simp only [indices, List.map_flatMap, List.map_map, Function.comp_def, offset]
    rw [read]
    exact getD_map_indices (fun r => g (i :: r)) fallback mem'

/-- The index of `shape` that a read at `index` of a broadcast shape lands on:
the leading coordinates the array lacks are dropped, and axes of length one
are read at 0. -/
def reduceIndex (shape index : List Nat) : List Nat :=
  List.zipWith (fun length i => if length = 1 then 0 else i) shape (index.drop (index.length - shape.length))

theorem broadcastAt_eq [Inhabited α] (x : ArrayD α) (index : List Nat) :
    x.broadcastAt index = x.elems.getD (offset x.shape (reduceIndex x.shape index)) default := rfl

/-- `reduceIndex` with both lists written from the last axis. -/
def reduceFromLast (shape index : List Nat) : List Nat :=
  List.zipWith (fun length i => if length = 1 then 0 else i) shape index

theorem reverse_zipWith {β γ δ : Type} (f : β → γ → δ) :
    ∀ {l : List β} {l' : List γ}, l.length = l'.length →
      (List.zipWith f l l').reverse = List.zipWith f l.reverse l'.reverse
  | [], [], _ => rfl
  | _ :: _, _ :: _, same => by
    simp only [List.zipWith_cons_cons, List.reverse_cons]
    rw [reverse_zipWith f (by simpa using same), List.zipWith_append _ _ _ _ _ (by simpa using same)]
    rfl

theorem zipWith_append_of_length_le {β γ δ : Type} (f : β → γ → δ) :
    ∀ {l : List β} {l' : List γ} (l'' : List γ), l.length ≤ l'.length →
      List.zipWith f l (l' ++ l'') = List.zipWith f l l'
  | [], _, _, _ => by simp
  | _ :: _, _ :: _, l'', long => by
    simp only [List.cons_append, List.zipWith_cons_cons, zipWith_append_of_length_le f l'' (by simpa using long)]

theorem reduceIndex_reverse {shape index : List Nat} (long : shape.length ≤ index.length) :
    (reduceIndex shape index).reverse = reduceFromLast shape.reverse index.reverse := by
  have sized : shape.length = (index.drop (index.length - shape.length)).length := by simp; omega
  have split : index.reverse =
      (index.drop (index.length - shape.length)).reverse ++ (index.take (index.length - shape.length)).reverse := by
    rw [← List.reverse_append, List.take_append_drop]
  rw [reduceIndex, reverse_zipWith _ sized, reduceFromLast, split,
    zipWith_append_of_length_le _ _ (by simp only [List.length_reverse]; exact sized.le)]

theorem length_reduceIndex {shape index : List Nat} (long : shape.length ≤ index.length) :
    (reduceIndex shape index).length = shape.length := by
  simp [reduceIndex]
  omega

theorem reduceFromLast_lt : ∀ {shape target index : List Nat}, StretchesFromLast shape target →
    List.Forall₂ (· < ·) index target → List.Forall₂ (· < ·) (reduceFromLast shape index) shape
  | [], _, _, _, _ => .nil
  | _ :: _, _ :: _, _ :: _, ⟨axis, rest⟩, .cons within within' =>
    .cons (by dsimp only; split <;> omega) (reduceFromLast_lt rest within')

theorem reduceFromLast_self : ∀ {shape index : List Nat}, List.Forall₂ (· < ·) index shape →
    reduceFromLast shape index = index
  | [], [], .nil => rfl
  | _ :: _, _ :: _, .cons within rest => by
    rw [reduceFromLast, List.zipWith_cons_cons, ← reduceFromLast, reduceFromLast_self rest]
    congr 1
    split <;> omega

theorem reduceFromLast_reduceFromLast : ∀ {shape target : List Nat} (index : List Nat),
    StretchesFromLast shape target →
      reduceFromLast shape (reduceFromLast target index) = reduceFromLast shape index
  | [], _, _, _ => rfl
  | _ :: _, _ :: _, [], _ => rfl
  | _ :: _, _ :: _, _ :: index, ⟨axis, rest⟩ => by
    simp only [reduceFromLast, List.zipWith_cons_cons] at rest ⊢
    rw [← reduceFromLast, ← reduceFromLast, ← reduceFromLast, reduceFromLast_reduceFromLast index rest]
    congr 1
    split_ifs <;> omega

/-- A read at an index of a shape `shape` stretches to lands on an index of
`shape`. -/
theorem reduceIndex_mem {shape target index : List Nat} (stretched : Stretches shape target)
    (mem : index ∈ indices target) : reduceIndex shape index ∈ indices shape := by
  rw [mem_indices_iff, ← List.forall₂_reverse_iff, reduceIndex_reverse (stretched.length_le_of_mem mem)]
  exact reduceFromLast_lt stretched (List.forall₂_reverse_iff.2 (mem_indices_iff.1 mem))

/-- A read at an index of the array's own shape lands on that index. -/
theorem reduceIndex_self {shape index : List Nat} (mem : index ∈ indices shape) : reduceIndex shape index = index := by
  have forall₂ := mem_indices_iff.1 mem
  apply List.reverse_injective
  rw [reduceIndex_reverse forall₂.length_eq.ge, reduceFromLast_self (List.forall₂_reverse_iff.2 forall₂)]

/-- Reading through a broadcast of a broadcast reads through the last one. -/
theorem reduceIndex_reduceIndex {shape target index : List Nat} (stretched : Stretches shape target)
    (long : target.length ≤ index.length) :
    reduceIndex shape (reduceIndex target index) = reduceIndex shape index := by
  apply List.reverse_injective
  rw [reduceIndex_reverse (by rw [length_reduceIndex long]; exact stretched.length_le), reduceIndex_reverse long,
    reduceFromLast_reduceFromLast _ stretched, reduceIndex_reverse (stretched.length_le.trans long)]

/-- The array of a shape whose entry at each index is `g` of it. -/
def tabulate (shape : List Nat) (g : List Nat → α) : ArrayD α := ⟨shape, (indices shape).map g, by simp⟩

@[simp] theorem tabulate_shape (shape : List Nat) (g : List Nat → α) : (tabulate shape g).shape = shape := rfl

@[simp] theorem tabulate_elems (shape : List Nat) (g : List Nat → α) :
    (tabulate shape g).elems = (indices shape).map g := rfl

theorem tabulate_congr {shape : List Nat} {g g' : List Nat → α} (same : ∀ index ∈ indices shape, g index = g' index) :
    tabulate shape g = tabulate shape g' :=
  ArrayD.ext rfl (List.map_congr_left same)

/-- A fill is the tabulation of a constant. -/
theorem fromElem_eq_tabulate (shape : List Nat) (value : α) : fromElem shape value = tabulate shape fun _ => value :=
  ArrayD.ext rfl (by rw [fromElem_elems, tabulate_elems, List.map_const', length_indices])

/-- An array is the tabulation of its reads at its own indices. -/
theorem tabulate_broadcastAt [Inhabited α] (x : ArrayD α) : tabulate x.shape x.broadcastAt = x := by
  refine ArrayD.ext rfl ?_
  rw [tabulate_elems, List.map_congr_left fun index mem => by rw [broadcastAt_eq, reduceIndex_self mem]]
  conv => rhs; rw [← map_getD_range x.elems default, x.elems_length, ← map_offset_indices, List.map_map]
  rfl

/-- Reading a tabulation through its broadcast to a shape it stretches to. -/
theorem broadcastAt_tabulate [Inhabited α] {shape target : List Nat} (g : List Nat → α)
    (stretched : Stretches shape target) {index : List Nat} (mem : index ∈ indices target) :
    (tabulate shape g).broadcastAt index = g (reduceIndex shape index) := by
  rw [broadcastAt_eq, tabulate_shape, tabulate_elems, getD_map_indices _ _ (reduceIndex_mem stretched mem)]

/-- Reading an array through a broadcast of its shape to `target`, at an index
of a broadcast of `target`, reads it there directly. -/
theorem broadcastAt_reduceIndex [Inhabited α] (x : ArrayD α) {target index : List Nat}
    (stretched : Stretches x.shape target) (long : target.length ≤ index.length) :
    x.broadcastAt (reduceIndex target index) = x.broadcastAt index := by
  rw [broadcastAt_eq, broadcastAt_eq, reduceIndex_reduceIndex stretched long]

/-- A read at an index of a shape the array stretches to is one of its
elements. -/
theorem broadcastAt_mem [Inhabited α] {x : ArrayD α} {target index : List Nat} (stretched : Stretches x.shape target)
    (mem : index ∈ indices target) : x.broadcastAt index ∈ x.elems := by
  have within : offset x.shape (reduceIndex x.shape index) < x.elems.length :=
    x.elems_length ▸ offset_lt (reduceIndex_mem stretched mem)
  rw [broadcastAt_eq, List.getD_eq_getElem _ _ within]
  exact List.getElem_mem _

/-! ## The arithmetic of `ndarray` on all shapes -/

/-- What an arithmetic operator returns on operands whose shapes co-broadcast
to `shape` (`none` when they do not): the panic, or the array of the shape
whose entry at each index is `g` of it. -/
def broadcastResult (shape : Option (List Nat)) (g : List Nat → α) : Except Failure (ArrayD α) :=
  match shape with
  | none => .error (.panic broadcastFailed)
  | some shape => .ok (tabulate shape g)

/-- An arithmetic operator of `ndarray` is one formula on all shapes: on the
co-broadcast shape, the operator on the two operands' broadcast reads; the
same-shape fast path computes the same. -/
theorem zipBroadcast_eq [Inhabited α] (f : α → α → α) (x y : ArrayD α) :
    zipBroadcast f x y =
      broadcastResult (coBroadcast x.shape y.shape) fun index => f (x.broadcastAt index) (y.broadcastAt index) := by
  unfold zipBroadcast
  split
  · rename_i same
    rw [← same, coBroadcast_self]
    refine congrArg Except.ok (ArrayD.ext rfl ?_)
    conv => lhs; rw [zipSame_elems, ← tabulate_broadcastAt x, ← tabulate_broadcastAt y]
    simp only [tabulate_elems, tabulate_shape, same, List.zipWith_map, List.zipWith_same]
  · rfl

/-- `g` reads at every index of a broadcast of `shape` what it reads at the
index of `shape` that index lands on, as a read through an array of `shape`
does. -/
def ReadsThrough (shape : List Nat) (g : List Nat → α) : Prop :=
  ∀ ⦃target index : List Nat⦄, Stretches shape target → index ∈ indices target →
    g (reduceIndex shape index) = g index

/-- `result` is what an arithmetic operator returns for `g` on `shape`, and `g`
reads through the shape: the form every result of the arithmetic of `ndarray`
has, whatever the expression that computed it. -/
def Tabulates (result : Except Failure (ArrayD α)) (shape : Option (List Nat)) (g : List Nat → α) : Prop :=
  result = broadcastResult shape g ∧ ∀ s ∈ shape, ReadsThrough s g

theorem readsThrough_broadcastAt [Inhabited α] {x : ArrayD α} {shape : List Nat}
    (stretched : Stretches x.shape shape) : ReadsThrough shape x.broadcastAt := fun _ _ stretched' mem =>
  broadcastAt_reduceIndex x stretched (stretched'.length_le_of_mem mem)

theorem ReadsThrough.broadcastAt_tabulate [Inhabited α] {shape target index : List Nat} {g : List Nat → α}
    (reads : ReadsThrough shape g) (stretched : Stretches shape target) (mem : index ∈ indices target) :
    (tabulate shape g).broadcastAt index = g index :=
  (ArrayD.broadcastAt_tabulate g stretched mem).trans (reads stretched mem)

/-- A read through a shape reads through every shape it stretches to. -/
theorem ReadsThrough.stretch {shape shape' : List Nat} {g : List Nat → α} (reads : ReadsThrough shape g)
    (stretched : Stretches shape shape') : ReadsThrough shape' g := fun _ index stretched' mem =>
  calc g (reduceIndex shape' index)
      = g (reduceIndex shape (reduceIndex shape' index)) := (reads stretched (reduceIndex_mem stretched' mem)).symm
    _ = g (reduceIndex shape index) := by rw [reduceIndex_reduceIndex stretched (stretched'.length_le_of_mem mem)]
    _ = g index := reads (stretched.trans stretched') mem

theorem ReadsThrough.zip {shape : List Nat} {g g' : List Nat → α} (f : α → α → α) (reads : ReadsThrough shape g)
    (reads' : ReadsThrough shape g') : ReadsThrough shape fun index => f (g index) (g' index) :=
  fun _ _ stretched mem => congrArg₂ f (reads stretched mem) (reads' stretched mem)

namespace Tabulates

theorem of_tabulate {shape : List Nat} {g : List Nat → α} (reads : ReadsThrough shape g) :
    Tabulates (.ok (tabulate shape g)) (some shape) g :=
  ⟨rfl, by rintro _ ⟨⟩; exact reads⟩

theorem of_array [Inhabited α] (x : ArrayD α) : Tabulates (.ok x) (some x.shape) x.broadcastAt := by
  have tabulates := of_tabulate (readsThrough_broadcastAt (Stretches.refl x.shape))
  rwa [tabulate_broadcastAt] at tabulates

theorem of_fromElem (shape : List Nat) (value : α) :
    Tabulates (.ok (ArrayD.fromElem shape value)) (some shape) fun _ => value := by
  rw [fromElem_eq_tabulate]
  exact of_tabulate fun _ _ _ _ => rfl

/-- A result that tabulates `g` is what the operator returns for any read that
agrees with `g` on the shape. -/
theorem eq_broadcastResult {r : Except Failure (ArrayD α)} {shape : Option (List Nat)} {g g' : List Nat → α}
    (tabulates : Tabulates r shape g) (same : ∀ s ∈ shape, ∀ index ∈ indices s, g index = g' index) :
    r = broadcastResult shape g' := by
  rw [tabulates.1]
  cases shape with
  | none => rfl
  | some s => exact congrArg Except.ok (tabulate_congr (same s rfl))

/-- Two results that tabulate on the same shape reads that agree on it are
equal. -/
theorem eq {r r' : Except Failure (ArrayD α)} {shape shape' : Option (List Nat)} {g g' : List Nat → α}
    (tabulates : Tabulates r shape g) (tabulates' : Tabulates r' shape' g') (shapes : shape = shape')
    (same : ∀ s ∈ shape, ∀ index ∈ indices s, g index = g' index) : r = r' := by
  subst shapes
  rw [tabulates.eq_broadcastResult same, tabulates'.1]

/-- An arithmetic operator on two arrays that tabulate `g` and `g'` tabulates
the operator on their reads, on the co-broadcast of their shapes. -/
theorem zip_ok [Inhabited α] (f : α → α → α) {x y : ArrayD α} {shape shape' : List Nat} {g g' : List Nat → α}
    (tabulates : Tabulates (.ok x) (some shape) g) (tabulates' : Tabulates (.ok y) (some shape') g') :
    Tabulates (zipBroadcast f x y) (coBroadcast shape shape') fun index => f (g index) (g' index) := by
  obtain ⟨⟨⟩, reads⟩ := tabulates
  obtain ⟨⟨⟩, reads'⟩ := tabulates'
  have reads := reads shape rfl
  have reads' := reads' shape' rfl
  rw [Tabulates, zipBroadcast_eq, tabulate_shape, tabulate_shape]
  cases found : coBroadcast shape shape' with
  | none => exact ⟨rfl, by simp⟩
  | some common =>
    obtain ⟨stretched, stretched'⟩ := coBroadcast_stretches found
    refine ⟨congrArg Except.ok (tabulate_congr fun index mem => ?_), ?_⟩
    · rw [reads.broadcastAt_tabulate stretched mem, reads'.broadcastAt_tabulate stretched' mem]
    · rintro _ ⟨⟩
      exact (reads.stretch stretched).zip f (reads'.stretch stretched')

/-- An arithmetic operator on two results: a panic of either operand is the
result's, and otherwise as `zip_ok`. -/
theorem zip [Inhabited α] (f : α → α → α) {r r' : Except Failure (ArrayD α)} {shape shape' : Option (List Nat)}
    {g g' : List Nat → α} (tabulates : Tabulates r shape g) (tabulates' : Tabulates r' shape' g') :
    Tabulates (do let x ← r; let y ← r'; zipBroadcast f x y) (shape.bind fun s => shape'.bind (coBroadcast s ·))
      fun index => f (g index) (g' index) := by
  obtain ⟨rfl, reads⟩ := tabulates
  obtain ⟨rfl, reads'⟩ := tabulates'
  cases shape with
  | none => exact ⟨rfl, by simp⟩
  | some s =>
    cases shape' with
    | none => exact ⟨rfl, by simp⟩
    | some s' => exact (of_tabulate (reads s rfl)).zip_ok f (of_tabulate (reads' s' rfl))

/-- An element-wise map of a result tabulates the map of its reads. -/
theorem mapv {β : Type} (h : α → β) {r : Except Failure (ArrayD α)} {shape : Option (List Nat)}
    {g : List Nat → α} (tabulates : Tabulates r shape g) :
    Tabulates (do let x ← r; .ok (x.mapv h)) shape fun index => h (g index) := by
  obtain ⟨rfl, reads⟩ := tabulates
  cases shape with
  | none => exact ⟨rfl, by simp⟩
  | some s =>
    refine ⟨congrArg Except.ok (ArrayD.ext rfl (List.map_map h g _)), ?_⟩
    rintro _ ⟨⟩ _ _ stretched mem
    exact congrArg h (reads s rfl stretched mem)

/-- Folding an arithmetic operator over arrays from a tabulation: the fold of
the operator over the arrays' reads, on the fold of co-broadcast over their
shapes. -/
theorem foldlM [Inhabited α] (f : α → α → α) :
    ∀ (rest : List (ArrayD α)) (shape : List Nat) (g : List Nat → α), ReadsThrough shape g →
      Tabulates (rest.foldlM (fun acc item => zipBroadcast f acc item) (tabulate shape g))
        ((rest.map ArrayD.shape).foldlM coBroadcast shape)
        fun index => (rest.map (·.broadcastAt index)).foldl f (g index)
  | [], _, _, reads => of_tabulate reads
  | next :: rest, shape, g, reads => by
    obtain ⟨result, reads'⟩ := (of_tabulate reads).zip_ok f (of_array next)
    simp only [List.foldlM_cons, List.map_cons, List.foldl_cons]
    rw [result]
    cases found : coBroadcast shape next.shape with
    | none => exact ⟨rfl, by simp⟩
    | some common => exact foldlM f rest common _ (reads' common found)

end Tabulates

/-- The arithmetic operator on two arrays tabulates the operator on their
broadcast reads. -/
theorem tabulates_zipBroadcast [Inhabited α] (f : α → α → α) (x y : ArrayD α) :
    Tabulates (zipBroadcast f x y) (coBroadcast x.shape y.shape)
      fun index => f (x.broadcastAt index) (y.broadcastAt index) :=
  (Tabulates.of_array x).zip_ok f (Tabulates.of_array y)

/-- An arithmetic operator on a commutative operation commutes, on all shapes
and in its panics. -/
theorem zipBroadcast_comm [Inhabited α] {f : α → α → α} (comm : ∀ a b, f a b = f b a) (x y : ArrayD α) :
    zipBroadcast f x y = zipBroadcast f y x :=
  (tabulates_zipBroadcast f x y).eq (tabulates_zipBroadcast f y x) (coBroadcast_comm _ _)
    fun _ _ _ _ => comm _ _

/-- An arithmetic operator on an associative operation associates, on all
shapes and in its panics. -/
theorem zipBroadcast_assoc [Inhabited α] {f : α → α → α} (assoc : ∀ a b c, f (f a b) c = f a (f b c))
    (x y z : ArrayD α) :
    (do let xy ← zipBroadcast f x y; zipBroadcast f xy z) = (do let yz ← zipBroadcast f y z; zipBroadcast f x yz) :=
  ((tabulates_zipBroadcast f x y).zip f (.of_array z)).eq ((Tabulates.of_array x).zip f (tabulates_zipBroadcast f y z))
    (eq_of_stretches_iff fun _ => by simp only [bind_coBroadcast_stretches_iff,
      exists_mem_some_stretches_iff, exists_mem_coBroadcast_stretches_iff, and_assoc])
    fun _ _ _ _ => assoc _ _ _

/-! ## The broadcast of one array -/

/-- `upcast(to, from, strides)` of `ArrayBase::broadcast`, as the check it
makes: `to` has at least as many axes as `from`, and zipped from their last
axes each axis of `from` has the length of `to`'s or length one. The strides
it computes are what `broadcastAt` reads through. -/
def upcast (target shape : List Nat) : Bool :=
  decide (shape.length ≤ target.length) &&
    (target.reverse.zip shape.reverse).all fun axes => axes.1 == axes.2 || axes.2 == 1

/-- `ArrayBase::broadcast(shape)`, copied out with `to_owned`: the array read
through its broadcast to `shape`, `None` when it does not broadcast there. -/
def broadcast [Inhabited α] (shape : List Nat) (x : ArrayD α) : Option (ArrayD α) :=
  if upcast shape x.shape then some (tabulate shape x.broadcastAt) else none

theorem stretchesFromLast_iff_check : ∀ (shape target : List Nat),
    StretchesFromLast shape target ↔
      (decide (shape.length ≤ target.length) &&
        (target.zip shape).all fun axes => axes.1 == axes.2 || axes.2 == 1) = true
  | [], target => by simp
  | _ :: _, [] => by simp
  | length :: shape, length' :: target => by
    rw [StretchesFromLast.cons_cons, stretchesFromLast_iff_check shape target]
    simp only [List.length_cons, Nat.add_le_add_iff_right, List.zip_cons_cons, List.all_cons, Bool.and_eq_true,
      decide_eq_true_eq, Bool.or_eq_true, beq_iff_eq]
    constructor
    · rintro ⟨axis, fits, all⟩
      exact ⟨fits, axis.imp Eq.symm id, all⟩
    · rintro ⟨fits, axis, all⟩
      exact ⟨axis.imp Eq.symm id, fits, all⟩

/-- `upcast` succeeds exactly when the shape stretches to the target. -/
theorem upcast_iff (target shape : List Nat) : upcast target shape = true ↔ Stretches shape target := by
  rw [Stretches, stretchesFromLast_iff_check, upcast, List.length_reverse, List.length_reverse]

instance (shape target : List Nat) : Decidable (Stretches shape target) :=
  decidable_of_iff _ (upcast_iff target shape)

theorem broadcast_of_stretches [Inhabited α] {shape : List Nat} {x : ArrayD α} (stretched : Stretches x.shape shape) :
    broadcast shape x = some (tabulate shape x.broadcastAt) :=
  if_pos ((upcast_iff _ _).2 stretched)

theorem broadcast_eq_none [Inhabited α] {shape : List Nat} {x : ArrayD α} (apart : ¬ Stretches x.shape shape) :
    broadcast shape x = none :=
  if_neg fun stretched => apart ((upcast_iff _ _).1 stretched)

end Moose.Host.ArrayD

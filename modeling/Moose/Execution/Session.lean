import Moose.Computation
import Mathlib

/-!
# The symbolic session

`SymbolicSession` (`execution::symbolic`): the state behind its lock, that is
the ops vector and the replicated-setup cache, and the two calls a kernel makes
on it, `add_operation` and `setup`.

A kernel body run in the session is a program over these two calls: `Emission`
for `gen_setup`, which only appends operations, and `Lowering` for a kernel
closure, which may also ask for the setup of a replicated placement. The
nested `execute` calls a kernel makes bottom out in the same two calls, so a
program is their flattened sequence. The sequential runs here are the ones the
executor performs; the interleaved runs of several threads are in
`Moose.Execution.Concurrent`.
-/

namespace Moose.Execution

/-- `SymbolicHandle`: a value known only as the output of the operation `op`. -/
structure SymbolicHandle (P : Type) where
  op : String
  plc : P
  deriving DecidableEq, Repr

/-- `Symbolic<T>`: a value that exists only as a handle, or a concrete value
some parts of which may be handles. -/
inductive Symbolic (T P : Type) where
  | symbolic (handle : SymbolicHandle P)
  | concrete (value : T)
  deriving DecidableEq, Repr

/-- `Placed`: the placement a value lives on. -/
class Placed (T : Type) (P : outParam Type) where
  placement : T → Except Error P

instance {T P : Type} [Placed T P] : Placed (Symbolic T P) P where
  placement
    | .symbolic handle => .ok handle.plc
    | .concrete value => Placed.placement value

/-- `PlacementPlace`: moving a value onto a placement. -/
class PlacementPlace (P T : Type) where
  place : P → T → T

/-- The fall-through arm of `place`: a concrete value is placed by its own
type, a handle keeps its op name and takes the new placement. -/
def Symbolic.rehome {T P : Type} [PlacementPlace P T] (plc : P) : Symbolic T P → Symbolic T P
  | .concrete value => .concrete (PlacementPlace.place plc value)
  | .symbolic handle => .symbolic ⟨handle.op, plc⟩

/-- `PlacementPlace<S, Symbolic<T>>::place`: a value already on `plc` is
returned as it is. -/
def Symbolic.place {T P : Type} [Placed T P] [DecidableEq P] [PlacementPlace P T] (plc : P)
    (x : Symbolic T P) : Symbolic T P :=
  match Placed.placement x with
  | .ok current => if current = plc then x else x.rehome plc
  | .error _ => x.rehome plc

section PlaceCases

variable {T P : Type} [Placed T P] [DecidableEq P] [PlacementPlace P T]

/-- A value already on `plc` is returned as it is. -/
theorem Symbolic.place_of_placement {plc : P} {x : Symbolic T P} (placed : Placed.placement x = .ok plc) :
    x.place plc = x := by
  simp [Symbolic.place, placed]

/-- Any other value is re-homed. -/
theorem Symbolic.place_of_not_placement {plc : P} {x : Symbolic T P} (moved : Placed.placement x ≠ .ok plc) :
    x.place plc = x.rehome plc := by
  unfold Symbolic.place
  split
  · rename_i current placed
    exact if_neg fun (same : current = plc) => moved (same ▸ placed)
  · rfl

end PlaceCases

/-- Values that may hold symbolic handles, with the op names of the handles
they hold. -/
class HoldsHandles (T : Type) where
  handles : T → List String

export HoldsHandles (handles)

instance {T P : Type} [HoldsHandles T] : HoldsHandles (Symbolic T P) where
  handles
    | .symbolic handle => [handle.op]
    | .concrete value => handles value

instance {P : Type} : HoldsHandles (SymbolicHandle P) := ⟨fun handle => [handle.op]⟩

@[simp] theorem flatMap_handles_symbolicHandle {P : Type} (values : List (SymbolicHandle P)) :
    values.flatMap handles = values.map SymbolicHandle.op := by
  induction values <;> simp_all [handles]

instance : HoldsHandles Unit := ⟨fun _ => []⟩

instance {ε α : Type} [HoldsHandles α] : HoldsHandles (Except ε α) where
  handles
    | .ok value => handles value
    | .error _ => []

/-! ## Placing symbolic values

Whether `place` lands a value on the placement asked for depends on the
concrete type's own `place`: the laws below assume it does, and then hold for
every symbolic and partly concrete value. -/

section Place

variable {T P : Type} [Placed T P]

@[simp] theorem Symbolic.placement_symbolic (handle : SymbolicHandle P) :
    Placed.placement (Symbolic.symbolic handle : Symbolic T P) = .ok handle.plc := rfl

@[simp] theorem Symbolic.placement_concrete (value : T) :
    Placed.placement (Symbolic.concrete value : Symbolic T P) = Placed.placement value := rfl

variable [PlacementPlace P T]

theorem Symbolic.placement_rehome
    (placesOwn : ∀ (plc : P) (value : T), Placed.placement (PlacementPlace.place plc value) = .ok plc)
    (plc : P) (x : Symbolic T P) : Placed.placement (x.rehome plc) = .ok plc := by
  cases x with
  | symbolic handle => rfl
  | concrete value => exact placesOwn plc value

variable [DecidableEq P]

/-- A handle keeps its op and ends on `plc`, whether it moves or not. -/
theorem Symbolic.place_symbolic (plc : P) (handle : SymbolicHandle P) :
    (Symbolic.symbolic handle : Symbolic T P).place plc = .symbolic ⟨handle.op, plc⟩ := by
  by_cases same : handle.plc = plc
  · rw [Symbolic.place_of_placement (congrArg Except.ok same), ← same]
  · exact Symbolic.place_of_not_placement fun placed => same (Except.ok.inj placed)

/-- `place` lands every value on `plc` when the concrete type's `place` does. -/
theorem Symbolic.placement_place
    (placesOwn : ∀ (plc : P) (value : T), Placed.placement (PlacementPlace.place plc value) = .ok plc)
    (plc : P) (x : Symbolic T P) : Placed.placement (x.place plc) = .ok plc := by
  by_cases placed : Placed.placement x = .ok plc
  · rwa [Symbolic.place_of_placement placed]
  · rw [Symbolic.place_of_not_placement placed]
    exact Symbolic.placement_rehome placesOwn plc x

end Place

/-- `PlacementPlace<S, Symbolic<T>>::place`, when the concrete type's `place`
lands its values where asked: the result is on `plc`, placing it again changes
nothing, a value already on `plc` is returned as it is, and a handle keeps its
op name, so it still refers to the same emitted operation. -/
theorem place_lands_on_placement {T P : Type} [Placed T P] [DecidableEq P] [PlacementPlace P T]
    (placesOwn : ∀ (plc : P) (value : T), Placed.placement (PlacementPlace.place plc value) = .ok plc)
    (plc : P) (x : Symbolic T P) :
    Placed.placement (x.place plc) = .ok plc ∧ (x.place plc).place plc = x.place plc ∧
      (Placed.placement x = .ok plc → x.place plc = x) ∧
      ∀ handle, x = .symbolic handle → x.place plc = .symbolic ⟨handle.op, plc⟩ :=
  ⟨Symbolic.placement_place placesOwn plc x,
    Symbolic.place_of_placement (Symbolic.placement_place placesOwn plc x),
    Symbolic.place_of_placement, fun handle named => named ▸ Symbolic.place_symbolic plc handle⟩

/-- Modelled from the spec: a concrete value that carries the placement it
lives on; `placement` reads it and `place` re-homes the value. -/
structure Located (T P : Type) where
  value : T
  plc : P
  deriving DecidableEq, Repr

instance {T P : Type} : Placed (Located T P) P := ⟨fun x => .ok x.plc⟩

instance {T P : Type} : PlacementPlace P (Located T P) := ⟨fun plc x => ⟨x.value, plc⟩⟩

/-- A handle on alice's host, placed on bob's, still names `op_0`. -/
theorem place_lands_on_placement_of_handle :
    (Symbolic.symbolic ⟨"op_0", .host ⟨"alice"⟩⟩ : Symbolic (Located Unit Placement) Placement).place
      (.host ⟨"bob"⟩) = .symbolic ⟨"op_0", .host ⟨"bob"⟩⟩ :=
  (place_lands_on_placement (fun (_ : Placement) (_ : Located Unit Placement) => rfl) (.host ⟨"bob"⟩)
    (.symbolic ⟨"op_0", .host ⟨"alice"⟩⟩)).2.2.2 _ rfl

/-! ## Operation names -/

/-- The name `add_operation` gives the operation it appends after `count`
others: `format!("op_{}", count)`. -/
def opName (count : Nat) : String := "op_" ++ toString count

/-- One step of reading a decimal numeral: the value so far, then one more
digit. -/
def pushDigit (value : Nat) (digit : Char) : Nat := 10 * value + (digit.toNat - '0'.toNat)

theorem pushDigit_digitChar (value : Nat) {digit : Nat} (small : digit < 10) :
    pushDigit value (Nat.digitChar digit) = 10 * value + digit := by
  have reads : ∀ digit < 10, (Nat.digitChar digit).toNat - '0'.toNat = digit := by decide
  unfold pushDigit
  rw [reads digit small]

/-- Reading back the digits `Nat.toDigitsCore` prepends gives the number it
was given. -/
theorem foldl_pushDigit_toDigitsCore (fuel value : Nat) (digits : List Char)
    (enough : value < fuel) :
    (Nat.toDigitsCore 10 fuel value digits).foldl pushDigit 0 = digits.foldl pushDigit value := by
  induction fuel generalizing value digits with
  | zero => omega
  | succ fuel ih =>
    have lastDigit := pushDigit_digitChar (value / 10) (Nat.mod_lt value (by omega))
    rw [Nat.div_add_mod] at lastDigit
    simp only [Nat.toDigitsCore]
    split
    · rw [List.foldl_cons, pushDigit_digitChar 0 (Nat.mod_lt value (by omega)),
        Nat.mod_eq_of_lt (by omega : value < 10), Nat.mul_zero, Nat.zero_add]
    · rw [ih _ _ (by omega), List.foldl_cons, lastDigit]

theorem toDigits_ten_injective : Function.Injective (Nat.toDigits 10) := fun a b same => by
  simpa [Nat.toDigits, foldl_pushDigit_toDigitsCore] using congrArg (List.foldl pushDigit 0) same

/-- Distinct positions get distinct names: the decimal rendering of the
counter is injective. -/
theorem opName_injective : Function.Injective opName := fun a b same => by
  apply toDigits_ten_injective
  simpa [opName, toString, Nat.repr, List.asString] using congrArg String.data same

/-! ## The session state -/

/-- An `Arc`, told apart from other `Arc`s by its allocation: two `Arc`s are
the identical one exactly when they carry the same allocation number. -/
structure Arc (α : Type) where
  id : Nat
  value : α
  deriving DecidableEq, Repr

/-- `SymbolicSessionState`, with the number of setup `Arc`s allocated so far. -/
structure SymbolicSessionState (Setup : Type) where
  ops : List Operation
  replicatedKeys : ReplicatedPlacement → Option (Arc Setup)
  nextArc : Nat

/-- The `Default` state a session starts from. -/
def SymbolicSessionState.default {Setup : Type} : SymbolicSessionState Setup :=
  ⟨[], fun _ => none, 0⟩

section State

variable {Setup : Type}

/-- `SymbolicSession::add_operation` under the write lock: the operation is
named after the number of operations before it and appended; the returned
handle names it and carries the call's placement. Placements are taken in
their `Placement` form. -/
def SymbolicSessionState.addOperation (state : SymbolicSessionState Setup) (operator : Operator)
    (operands : List String) (plc : Placement) :
    SymbolicHandle Placement × SymbolicSessionState Setup :=
  let name := opName state.ops.length
  (⟨name, plc⟩, { state with ops := state.ops ++ [⟨name, operator, operands, plc⟩] })

@[simp] theorem SymbolicSessionState.addOperation_handle (state : SymbolicSessionState Setup) (operator operands plc) :
    (state.addOperation operator operands plc).1 = ⟨opName state.ops.length, plc⟩ := rfl

@[simp] theorem SymbolicSessionState.addOperation_ops (state : SymbolicSessionState Setup) (operator operands plc) :
    (state.addOperation operator operands plc).2.ops =
      state.ops ++ [⟨opName state.ops.length, operator, operands, plc⟩] := rfl

@[simp] theorem SymbolicSessionState.addOperation_replicatedKeys (state : SymbolicSessionState Setup)
    (operator operands plc) :
    (state.addOperation operator operands plc).2.replicatedKeys = state.replicatedKeys := rfl

@[simp] theorem SymbolicSessionState.addOperation_nextArc (state : SymbolicSessionState Setup) (operator operands plc) :
    (state.addOperation operator operands plc).2.nextArc = state.nextArc := rfl

/-- The write-locked `entry(plc).or_insert_with(|| Arc::new(new_setup))` of
`setup`: the entry already there, or a freshly allocated `Arc` holding
`newSetup`. -/
def SymbolicSessionState.insertSetup (state : SymbolicSessionState Setup) (plc : ReplicatedPlacement)
    (newSetup : Setup) : Arc Setup × SymbolicSessionState Setup :=
  match state.replicatedKeys plc with
  | some arc => (arc, state)
  | none =>
    let arc : Arc Setup := ⟨state.nextArc, newSetup⟩
    (arc, { state with
      replicatedKeys := Function.update state.replicatedKeys plc (some arc)
      nextArc := state.nextArc + 1 })

theorem SymbolicSessionState.insertSetup_of_present {state : SymbolicSessionState Setup} {plc arc} (newSetup : Setup)
    (present : state.replicatedKeys plc = some arc) :
    state.insertSetup plc newSetup = (arc, state) := by
  simp [SymbolicSessionState.insertSetup, present]

theorem SymbolicSessionState.insertSetup_of_vacant {state : SymbolicSessionState Setup} {plc} (newSetup : Setup)
    (vacant : state.replicatedKeys plc = none) :
    state.insertSetup plc newSetup = (⟨state.nextArc, newSetup⟩, { state with
      replicatedKeys := Function.update state.replicatedKeys plc (some ⟨state.nextArc, newSetup⟩)
      nextArc := state.nextArc + 1 }) := by
  simp [SymbolicSessionState.insertSetup, vacant]

@[simp] theorem SymbolicSessionState.insertSetup_ops (state : SymbolicSessionState Setup) (plc) (newSetup : Setup) :
    (state.insertSetup plc newSetup).2.ops = state.ops := by
  unfold SymbolicSessionState.insertSetup; split <;> rfl

end State

/-! ## Programs over the session -/

/-- A `gen_setup` run against the session: it appends operations one after
another and ends with a setup or an error. -/
inductive Emission (α : Type) where
  | pure (value : α)
  | fail (error : Error)
  | addOperation (operator : Operator) (operands : List String) (plc : Placement)
      (next : SymbolicHandle Placement → Emission α)

/-- A kernel closure run in the session: besides appending operations it may
ask for the setup of a replicated placement and continue with what `setup`
returned. -/
inductive Lowering (Setup α : Type) where
  | pure (value : α)
  | fail (error : Error)
  | addOperation (operator : Operator) (operands : List String) (plc : Placement)
      (next : SymbolicHandle Placement → Lowering Setup α)
  | setup (plc : ReplicatedPlacement) (next : Except Error (Arc Setup) → Lowering Setup α)

/-- Running one lowering, then the next on its value: sequencing with `?`,
an error ends the whole program. -/
def Lowering.bind {Setup α β : Type} : Lowering Setup α → (α → Lowering Setup β) → Lowering Setup β
  | .pure value, rest => rest value
  | .fail error, _ => .fail error
  | .addOperation operator operands plc next, rest =>
    .addOperation operator operands plc fun handle => (next handle).bind rest
  | .setup plc next, rest => .setup plc fun result => (next result).bind rest

section Runs

variable {Setup α : Type}

/-- A `gen_setup` run with no other thread in the session. -/
def Emission.run : Emission α → SymbolicSessionState Setup → Except Error α × SymbolicSessionState Setup
  | .pure value, state => (.ok value, state)
  | .fail error, state => (.error error, state)
  | .addOperation operator operands plc next, state =>
    let added := state.addOperation operator operands plc
    (next added.1).run added.2

/-- The end of `setup` after `gen_setup` returned: its error is passed on
with `?`, its setup is inserted unless an entry is there already. -/
def insertGenerated (plc : ReplicatedPlacement) :
    Except Error Setup × SymbolicSessionState Setup → Except Error (Arc Setup) × SymbolicSessionState Setup
  | (.error error, state) => (.error error, state)
  | (.ok newSetup, state) =>
    let inserted := state.insertSetup plc newSetup
    (.ok inserted.1, inserted.2)

/-- `SymbolicSession::setup` with no other thread in the session: the cached
entry on a hit; on a miss, `gen_setup` and then the insert. -/
def SymbolicSessionState.setup (state : SymbolicSessionState Setup)
    (genSetup : ReplicatedPlacement → Emission Setup) (plc : ReplicatedPlacement) : Except Error (Arc Setup) × SymbolicSessionState Setup :=
  match state.replicatedKeys plc with
  | some arc => (.ok arc, state)
  | none => insertGenerated plc ((genSetup plc).run state)

/-- A kernel closure run with no other thread in the session. -/
def Lowering.run (genSetup : ReplicatedPlacement → Emission Setup) :
    Lowering Setup α → SymbolicSessionState Setup → Except Error α × SymbolicSessionState Setup
  | .pure value, state => (.ok value, state)
  | .fail error, state => (.error error, state)
  | .addOperation operator operands plc next, state =>
    let added := state.addOperation operator operands plc
    (next added.1).run genSetup added.2
  | .setup plc next, state =>
    let answered := state.setup genSetup plc
    (next answered.1).run genSetup answered.2

/-- Running a sequenced program runs the first part, then the rest on its
value from the state it left; an error ends the run where it happened. -/
theorem Lowering.run_bind {β : Type} (genSetup : ReplicatedPlacement → Emission Setup)
    (program : Lowering Setup α) (rest : α → Lowering Setup β) (state : SymbolicSessionState Setup) :
    (program.bind rest).run genSetup state =
      match program.run genSetup state with
      | (.ok value, state') => (rest value).run genSetup state'
      | (.error error, state') => (.error error, state') := by
  induction program generalizing state with
  | pure value => rfl
  | fail error => rfl
  | addOperation operator operands plc next ih => exact ih _ _
  | setup plc next ih => exact ih _ _

end Runs

/-! ## Programs that only name operations they know of

A program is scoped in a list of known op names when every operand name it
passes to `add_operation`, and every handle in the value it ends with, is
known; a handle `add_operation` returns, and the handles of a setup `setup`
returns, become known from then on. The continuations are scoped for every
answer, since a kernel cannot tell in advance which handle it gets. -/

section Scope

variable {Setup α : Type} [HoldsHandles Setup]

/-- The op names a `setup` answer makes known: those of the setup it returns. -/
def setupNames : Except Error (Arc Setup) → List String
  | .ok arc => handles arc.value
  | .error _ => []

/-- A `gen_setup` run that only names operations it knows of. -/
inductive Emission.Scoped [HoldsHandles α] : List String → Emission α → Prop
  | pure {known value} (grounded : handles value ⊆ known) : Scoped known (.pure value)
  | fail {known} (error : Error) : Scoped known (.fail error)
  | addOperation {known operator operands plc next} (operandsKnown : operands ⊆ known)
      (continues : ∀ handle : SymbolicHandle Placement, Scoped (handle.op :: known) (next handle)) :
      Scoped known (.addOperation operator operands plc next)

/-- A kernel closure that only names operations it knows of, in what it emits
and in what it returns. -/
inductive Lowering.Scoped [HoldsHandles α] : List String → Lowering Setup α → Prop
  | pure {known value} (grounded : handles value ⊆ known) : Scoped known (.pure value)
  | fail {known} (error : Error) : Scoped known (.fail error)
  | addOperation {known operator operands plc next} (operandsKnown : operands ⊆ known)
      (continues : ∀ handle : SymbolicHandle Placement, Scoped (handle.op :: known) (next handle)) :
      Scoped known (.addOperation operator operands plc next)
  | setup {known plc next}
      (continues : ∀ answer, Scoped (setupNames answer ++ known) (next answer)) :
      Scoped known (.setup plc next)

/-- A kernel closure whose `add_operation` operands are known names; what it
returns is not constrained. -/
inductive Lowering.OperandsScoped : List String → Lowering Setup α → Prop
  | pure {known} (value : α) : OperandsScoped known (.pure value)
  | fail {known} (error : Error) : OperandsScoped known (.fail error)
  | addOperation {known operator operands plc next} (operandsKnown : operands ⊆ known)
      (continues : ∀ handle : SymbolicHandle Placement,
        OperandsScoped (handle.op :: known) (next handle)) :
      OperandsScoped known (.addOperation operator operands plc next)
  | setup {known plc next}
      (continues : ∀ answer, OperandsScoped (setupNames answer ++ known) (next answer)) :
      OperandsScoped known (.setup plc next)

theorem Lowering.Scoped.mono [HoldsHandles α] {known known' : List String}
    {program : Lowering Setup α} (inScope : program.Scoped known) (more : known ⊆ known') :
    program.Scoped known' := by
  induction inScope generalizing known' with
  | pure grounded => exact .pure (List.Subset.trans grounded more)
  | fail error => exact .fail error
  | addOperation operandsKnown _ ih =>
    exact .addOperation (List.Subset.trans operandsKnown more) fun handle =>
      ih handle (List.cons_subset_cons _ more)
  | setup _ ih =>
    exact .setup fun answer =>
      ih answer (List.append_subset.2 ⟨List.subset_append_left _ _, List.subset_append_of_subset_right _ more⟩)

/-- A scoped program followed by a continuation that is scoped whenever what
it is given is known stays scoped. -/
theorem Lowering.Scoped.bind {β : Type} [HoldsHandles α] [HoldsHandles β] {known : List String}
    {program : Lowering Setup α} {rest : α → Lowering Setup β} (inScope : program.Scoped known)
    (restScoped : ∀ value known', known ⊆ known' → handles value ⊆ known' → (rest value).Scoped known') :
    (program.bind rest).Scoped known := by
  induction inScope with
  | pure grounded => exact restScoped _ _ (List.Subset.refl _) grounded
  | fail error => exact .fail error
  | addOperation operandsKnown _ ih =>
    exact .addOperation operandsKnown fun handle => ih handle fun value known' more =>
      restScoped value known' (List.Subset.trans (List.subset_cons_self _ _) more)
  | setup _ ih =>
    exact .setup fun answer => ih answer fun value known' more =>
      restScoped value known' (List.Subset.trans (List.subset_append_right _ _) more)

end Scope

end Moose.Execution

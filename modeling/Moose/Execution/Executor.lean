import Moose.Execution.Grounding

/-!
# The symbolic executor

`SymbolicExecutor::run_computation` lowers a computation by executing its
operations in order in a fresh `SymbolicSession`, each on the symbolic values
of its inputs, and returns the operations the session emitted.
`DefaultSymbolicStrategy::execute` compiles the operator's kernel for the
session (`DispatchKernel::compile`), asserts the operand count the kernel's
arity asks for and calls the closure. The kernels of the operators are a
parameter of the model; `SendOp` and `ReceiveOp` are the two the symbolic
session refuses itself.

The loop is one program over the session, run by the executor's thread alone,
so it is a run of one thread of `Moose.Execution.Concurrent`: what holds of
every reachable session holds of the computation it returns.
-/

namespace Moose.Execution

/-- `Kernel<SymbolicSession, SymbolicValue>`: a closure of fixed or variadic
arity over the placement and the operand values, run in the session. -/
inductive Kernel (Setup Value : Type) where
  | nullary (closure : Placement → Lowering Setup Value)
  | unary (closure : Placement → Value → Lowering Setup Value)
  | binary (closure : Placement → Value → Value → Lowering Setup Value)
  | ternary (closure : Placement → Value → Value → Value → Lowering Setup Value)
  | variadic (closure : Placement → List Value → Lowering Setup Value)

section Executor

variable {Setup Value : Type}

/-- The panic of `assert_eq!(left, right)` on two counts that differ, as
`rustc` prints it. -/
def assertEqFailed (left right : Nat) : String :=
  "assertion failed: `(left == right)`\n  left: `" ++ toString left ++ "`,\n right: `" ++ toString right ++ "`"

/-- The panic of `Option::unwrap` on `None`: of `env.get(input_name).unwrap()`
on a name the environment lacks, and of `operands.pop().unwrap()` on no
operand. -/
def unwrapFailed : String := "called `Option::unwrap()` on a `None` value"

/-- `assert_eq!(operands.len(), arity)`. -/
def assertArity (operands : List Value) (arity : Nat) : Except String Unit :=
  if operands.length = arity then .ok () else .error (assertEqFailed operands.length arity)

/-- `operands.pop().unwrap()`: the last operand, and the operands before it. -/
def popOperand (operands : List Value) : Except String (List Value × Value) :=
  match operands.getLast? with
  | some last => .ok (operands.dropLast, last)
  | none => .error unwrapFailed

/-- The match on the kernel's arity in `DefaultSymbolicStrategy::execute`: the
operand count is asserted, the operands are popped off the back, the last
first, and the closure is called on them. A failed assertion or `unwrap` is a
panic, given by its message. -/
def Kernel.apply (kernel : Kernel Setup Value) (plc : Placement) (operands : List Value) :
    Except String (Lowering Setup Value) :=
  match kernel with
  | .nullary closure => do
    assertArity operands 0
    pure (closure plc)
  | .unary closure => do
    assertArity operands 1
    let (_, x0) ← popOperand operands
    pure (closure plc x0)
  | .binary closure => do
    assertArity operands 2
    let (operands, x1) ← popOperand operands
    let (_, x0) ← popOperand operands
    pure (closure plc x0 x1)
  | .ternary closure => do
    assertArity operands 3
    let (operands, x2) ← popOperand operands
    let (operands, x1) ← popOperand operands
    let (_, x0) ← popOperand operands
    pure (closure plc x0 x1 x2)
  | .variadic closure => pure (closure plc operands)

/-- `DispatchKernel::compile` of `Operator` on the symbolic session: `SendOp`
and `ReceiveOp` are refused, every other operator is compiled by its own
`DispatchKernel` implementation, given as `compileOp`. -/
def compile (compileOp : Operator → Placement → Except Error (Kernel Setup Value)) (op : Operator)
    (plc : Placement) : Except Error (Kernel Setup Value) :=
  match op with
  | .send => .error (.compilation "SendOp not supported on symbolic sessions")
  | .receive => .error (.compilation "ReceiveOp not supported on symbolic sessions")
  | op => compileOp op plc

/-- `env.get(input_name).unwrap()` for each input: `none` when one is missing,
which the executor turns into a panic. -/
def operandValues (env : List (String × Value)) (inputs : List String) : Option (List Value) :=
  inputs.mapM env.lookup

/-- The loop of `SymbolicExecutor::run_computation` as one program over the
session: an operation's operands are read from the environment, its kernel is
compiled and called, and the result is bound to its name. An `Err` of `execute`
ends the loop with `?`; a panic ends it with its message. -/
def lowerOperations (compileOp : Operator → Placement → Except Error (Kernel Setup Value)) :
    List Operation → List (String × Value) → Lowering Setup (Except String Unit)
  | [], _ => .pure (.ok ())
  | op :: rest, env =>
    match operandValues env op.inputs with
    | none => .pure (.error unwrapFailed)
    | some operands =>
      match compile compileOp op.kind op.placement with
      | .error error => .fail error
      | .ok kernel =>
        match kernel.apply op.placement operands with
        | .error message => .pure (.error message)
        | .ok closure =>
          closure.bind fun result => lowerOperations compileOp rest ((op.name, result) :: env)

/-- The message `run_computation` wraps a lowering error in. -/
def loweringFailed (error : Error) : String :=
  "SymbolicSession failed to lower computation due to an error: " ++ error.message

/-- `SymbolicExecutor::run_computation`: the loop in a fresh session, then the
session's operations. The loop holds the only other reference to the
session's state and is over, so `Arc::try_unwrap` succeeds. -/
def runComputation (compileOp : Operator → Placement → Except Error (Kernel Setup Value))
    (genSetup : ReplicatedPlacement → Emission Setup) (computation : Computation) :
    Except Failure Computation :=
  match (lowerOperations compileOp computation.operations []).run genSetup .default with
  | (.error error, _) => .error (.error (.compilation (loweringFailed error)))
  | (.ok (.error message), _) => .error (.panic message)
  | (.ok (.ok ()), state) => .ok ⟨state.ops⟩

/-- The loop of `run_computation` with the session passed along by hand: how
it ends, the session it leaves, and the environment `env` holds at its end,
which `run_computation` drops with the block it is declared in. -/
def runLoop (compileOp : Operator → Placement → Except Error (Kernel Setup Value))
    (genSetup : ReplicatedPlacement → Emission Setup) :
    List Operation → List (String × Value) → SymbolicSessionState Setup →
      Except Error (Except String (List (String × Value))) × SymbolicSessionState Setup
  | [], env, state => (.ok (.ok env), state)
  | op :: rest, env, state =>
    match operandValues env op.inputs with
    | none => (.ok (.error unwrapFailed), state)
    | some operands =>
      match compile compileOp op.kind op.placement with
      | .error error => (.error error, state)
      | .ok kernel =>
        match kernel.apply op.placement operands with
        | .error message => (.ok (.error message), state)
        | .ok closure =>
          match closure.run genSetup state with
          | (.error error, state') => (.error error, state')
          | (.ok result, state') => runLoop compileOp genSetup rest ((op.name, result) :: env) state'

variable {compileOp : Operator → Placement → Except Error (Kernel Setup Value)}
  {genSetup : ReplicatedPlacement → Emission Setup}

theorem runComputation_eq_ok {computation lowered : Computation}
    (lowered_ok : runComputation compileOp genSetup computation = .ok lowered) :
    ∃ state, (lowerOperations compileOp computation.operations []).run genSetup .default =
      (.ok (.ok ()), state) ∧ lowered.operations = state.ops := by
  unfold runComputation at lowered_ok
  split at lowered_ok <;> cases lowered_ok
  exact ⟨_, ‹_›, rfl⟩

/-- The run of the loop is `runLoop`'s, with the environment dropped. -/
theorem lowerOperations_run (operations : List Operation) (env : List (String × Value))
    (state : SymbolicSessionState Setup) :
    (lowerOperations compileOp operations env).run genSetup state =
      ((runLoop compileOp genSetup operations env state).1.map (Except.map fun _ => ()),
        (runLoop compileOp genSetup operations env state).2) := by
  induction operations generalizing env state with
  | nil => rfl
  | cons op rest ih =>
    rw [lowerOperations, runLoop]
    rcases operandValues env op.inputs with _ | operands
    · rfl
    dsimp only
    rcases compile compileOp op.kind op.placement with error | kernel
    · rfl
    dsimp only
    rcases kernel.apply op.placement operands with message | closure
    · rfl
    dsimp only
    rw [Lowering.run_bind]
    rcases closure.run genSetup state with ⟨error | result, state'⟩
    · rfl
    · exact ih _ _

/-- A computation `run_computation` returns is the ops vector of a session the
executor's thread reaches, running the loop alone. -/
theorem runComputation_reachable {computation lowered : Computation}
    (lowered_ok : runComputation compileOp genSetup computation = .ok lowered) :
    ∃ session, Reachable genSetup (fun _ => lowerOperations compileOp computation.operations []) session ∧
      session.threads 0 = .finished (.ok (.ok ())) ∧ lowered.operations = session.state.ops := by
  obtain ⟨state, ran, operations⟩ := runComputation_eq_ok lowered_ok
  obtain ⟨session, reachable, sameState, stage⟩ :=
    (lowerOperations compileOp computation.operations []).run_reachable genSetup 0
  exact ⟨session, reachable, by rw [stage, ran], by rw [operations, sameState, ran]⟩

end Executor

/-! ## Emitted operations, in emission order -/

section Emission

variable {Setup α : Type}

/-- Operations appended by `add_operation` under any interleaving of callers:
kernels, `gen_setup` runs inside `setup`, and any number of threads. The ops
vector only grows at its end. In every reachable session it is the list of the
operations the calls appended, in lock order, the one at position `i` named
`op_i`, so names are pairwise distinct; every call's handle names the operation
it appended and carries its placement. And the computation `run_computation`
returns is the ops vector of a session its loop reaches. -/
theorem add_operation_names_in_emission_order (genSetup : ReplicatedPlacement → Emission Setup)
    (programs : Nat → Lowering Setup α) :
    (∀ (session next : Session Setup α) (thread : Nat), threadStep genSetup session thread = some next →
      session.state.ops <+: next.state.ops) ∧
    (∀ session : Session Setup α, Reachable genSetup programs session →
      session.history.filterMap SessionEvent.emitted = session.state.ops ∧
      (∀ (index : Nat) (operation : Operation), session.state.ops[index]? = some operation →
        operation.name = opName index) ∧
      (session.state.ops.map Operation.name).Nodup ∧
      ∀ (thread : Nat) (operator : Operator) (operands : List String) (plc : Placement)
        (handle : SymbolicHandle Placement),
        SessionEvent.added thread operator operands plc handle ∈ session.history →
        ∃ index, handle = ⟨opName index, plc⟩ ∧
          session.state.ops[index]? = some ⟨opName index, operator, operands, plc⟩) ∧
    ∀ {Value : Type} (compileOp : Operator → Placement → Except Error (Kernel Setup Value))
      (computation lowered : Computation),
      runComputation compileOp genSetup computation = .ok lowered →
      ∃ session, Reachable genSetup (fun _ => lowerOperations compileOp computation.operations []) session ∧
        session.threads 0 = .finished (.ok (.ok ())) ∧ lowered.operations = session.state.ops :=
  ⟨fun _ _ _ stepped => (threadStep_transition stepped).ops_extended,
    fun _ reachable => ⟨reachable.invariant.emitted, fun _ _ found => reachable.invariant.name_eq found,
      reachable.invariant.names_nodup, fun _ _ _ _ _ called => reachable.invariant.added_handle called⟩,
    fun _ _ _ lowered_ok => runComputation_reachable lowered_ok⟩

/-- The host of the examples below. -/
def alice : Placement := .host ⟨"alice"⟩

/-- Kernels that emit every operator as one operation on the handles of its
operands and return the new handle, as the symbolic kernels of runtime
operators do on symbolic operands. -/
def emitAll (op : Operator) (_ : Placement) : Except Error (Kernel Unit (SymbolicHandle Placement)) :=
  .ok (.variadic fun plc operands => .addOperation op (operands.map SymbolicHandle.op) plc .pure)

/-- An input, then its negation. -/
def negateInput : Computation := ⟨[⟨"x", .input, [], alice⟩, ⟨"y", .neg, ["x"], alice⟩]⟩

/-- Lowering `negateInput` emits `op_0` and `op_1`, the second on the first. -/
theorem add_operation_names_in_emission_order_of_negateInput :
    ∃ session, Reachable (fun _ => .pure ()) (fun _ => lowerOperations emitAll negateInput.operations [])
      session ∧ session.threads 0 = .finished (.ok (.ok ())) ∧
      [⟨"op_0", .input, [], alice⟩, ⟨"op_1", .neg, ["op_0"], alice⟩] = session.state.ops :=
  (add_operation_names_in_emission_order (fun _ => .pure ())
    (fun _ => lowerOperations emitAll negateInput.operations [])).2.2 emitAll negateInput _ rfl

end Emission

/-! ## Well-formed lowerings -/

section Scope

variable {Setup Value : Type} [HoldsHandles Setup] [HoldsHandles Value]

/-- A kernel whose `add_operation` operands, whatever it is called on, are
names of handles it was given, got back from `add_operation`, or read from a
setup `setup` returned. -/
def Kernel.OperandsScoped (kernel : Kernel Setup Value) : Prop :=
  ∀ plc operands closure, kernel.apply plc operands = .ok closure →
    closure.OperandsScoped (operands.flatMap handles)

/-- A kernel that names only such handles, in what it emits and in the value it
returns. -/
def Kernel.Scoped (kernel : Kernel Setup Value) : Prop :=
  ∀ plc operands closure, kernel.apply plc operands = .ok closure →
    closure.Scoped (operands.flatMap handles)

theorem operandValues_handles {env : List (String × Value)} {known : List String}
    (grounded : ∀ binding ∈ env, handles binding.2 ⊆ known) :
    ∀ {inputs : List String} {operands : List Value}, operandValues env inputs = some operands →
      operands.flatMap handles ⊆ known
  | [], operands, read => by
    simp only [operandValues, List.mapM_nil] at read
    cases read
    simp
  | input :: inputs, operands, read => by
    simp only [operandValues, List.mapM_cons, Option.pure_def, Option.bind_eq_bind,
      Option.bind_eq_some, Option.some.injEq] at read
    obtain ⟨value, found, values, rest, rfl⟩ := read
    obtain ⟨before, after, split, -⟩ := List.lookup_eq_some_iff.1 found
    have bound : (input, value) ∈ env := by simp [split]
    exact List.append_subset.2 ⟨grounded _ bound, operandValues_handles grounded rest⟩

variable {compileOp : Operator → Placement → Except Error (Kernel Setup Value)}

/-- With scoped kernels, the executor's loop is scoped: every name it uses is a
handle of an operand bound earlier or of what a kernel got back. -/
theorem lowerOperations_scoped (kernelsScoped : ∀ op plc kernel, compile compileOp op plc = .ok kernel → kernel.Scoped) :
    ∀ (operations : List Operation) (env : List (String × Value)) (known : List String),
      (∀ binding ∈ env, handles binding.2 ⊆ known) → (lowerOperations compileOp operations env).Scoped known
  | [], _, _, _ => .pure (List.nil_subset _)
  | op :: rest, env, known, grounded => by
    unfold lowerOperations
    split
    · exact .pure (List.nil_subset _)
    · rename_i operands read
      split
      · exact .fail _
      · rename_i kernel compiled
        split
        · exact .pure (List.nil_subset _)
        · rename_i closure applied
          refine ((kernelsScoped _ _ _ compiled _ _ _ applied).mono
            (operandValues_handles grounded read)).bind fun value known' more valueKnown => ?_
          refine lowerOperations_scoped kernelsScoped rest _ known' fun binding bound => ?_
          rcases List.mem_cons.1 bound with rfl | earlier
          · exact valueKnown
          · exact List.Subset.trans (grounded binding earlier) more

end Scope

section WellFormed

/-- Kernels that fabricate a handle: `IdentityOp` returns a handle to `op_0`
without emitting anything; every other operator is emitted on its operands. -/
def fabricateIdentity (op : Operator) (plc : Placement) :
    Except Error (Kernel Unit (SymbolicHandle Placement)) :=
  if op = .identity then .ok (.nullary fun plc => .pure ⟨opName 0, plc⟩) else emitAll op plc

/-- An identity on nothing, then its negation. -/
def negateIdentity : Computation := ⟨[⟨"x", .identity, [], alice⟩, ⟨"y", .neg, ["x"], alice⟩]⟩

/-- Kernels whose `add_operation` operands all come from handles they were
given can still return a handle to an operation that is not there yet: the
negation is lowered onto its own output, and the lowering is not well formed. -/
theorem fabricated_handle_breaks_well_formedness :
    (∀ op plc kernel, compile fabricateIdentity op plc = .ok kernel → kernel.OperandsScoped) ∧
    runComputation fabricateIdentity (fun _ => .pure ()) negateIdentity =
      .ok ⟨[⟨"op_0", .neg, ["op_0"], alice⟩]⟩ ∧
    ¬ Computation.WellFormed ⟨[⟨"op_0", .neg, ["op_0"], alice⟩]⟩ := by
  refine ⟨fun op plc kernel compiled => ?_, rfl, fun wellFormed => ?_⟩
  · intro plc operands closure applied
    unfold compile fabricateIdentity at compiled
    split at compiled
    · cases compiled
    · cases compiled
    · split at compiled
      · -- the fabricating kernel emits nothing
        cases compiled
        cases operands with
        | nil => cases applied; exact .pure _
        | cons => cases applied
      · cases compiled
        cases applied
        exact .addOperation (by simp) fun _ => .pure _
  · obtain ⟨earlier, before, -⟩ := wellFormed 0 _ rfl "op_0" (List.mem_singleton_self _)
    omega

theorem emitAll_scoped (op : Operator) (plc : Placement) (kernel : Kernel Unit (SymbolicHandle Placement))
    (compiled : compile emitAll op plc = .ok kernel) : kernel.Scoped := by
  unfold compile at compiled
  intro plc operands closure applied
  split at compiled <;> cases compiled
  cases applied
  exact .addOperation (by simp) fun handle => .pure (by simp [handles])

/-- When every kernel names only handles it was given, got back from
`add_operation` or read from a setup, in what it emits and in what it
returns, and `gen_setup` names only handles it got back, every computation
`run_computation` returns is well formed: each input of each operation names
an operation before it. -/
theorem lowered_computation_well_formed {Setup Value : Type} [HoldsHandles Setup] [HoldsHandles Value]
    (compileOp : Operator → Placement → Except Error (Kernel Setup Value))
    (genSetup : ReplicatedPlacement → Emission Setup)
    (kernelsScoped : ∀ op plc kernel, compile compileOp op plc = .ok kernel → kernel.Scoped)
    (genScoped : ∀ plc, (genSetup plc).Scoped []) (computation lowered : Computation)
    (lowered_ok : runComputation compileOp genSetup computation = .ok lowered) : lowered.WellFormed := by
  obtain ⟨session, reachable, -, operations⟩ := runComputation_reachable lowered_ok
  have wellFormed := reachable.wellFormed
    (fun _ => lowerOperations_scoped kernelsScoped _ [] [] (by simp)) genScoped
  rw [← operations] at wellFormed
  exact wellFormed

theorem lowered_computation_well_formed_of_negateInput :
    Computation.WellFormed ⟨[⟨"op_0", .input, [], alice⟩, ⟨"op_1", .neg, ["op_0"], alice⟩]⟩ :=
  lowered_computation_well_formed emitAll (fun _ => .pure ()) emitAll_scoped
    (fun _ => .pure (List.nil_subset _)) negateInput _ rfl

end WellFormed


/-! ## The loop read off the operations it walked

`run_computation` binds each result to its operation's name in a `HashMap`,
where a later `insert` replaces an earlier one. The spec's loop below reads
each operand off the list of operations walked so far and their values,
as the value of the most recent one bearing the input's name; the two are
the same program. On that list: inputs that name earlier operations and
operand counts the kernels accept rule out both panics of the loop, and a run
that returns `Ok` found every operand, compiled every kernel and passed every
arity assertion. -/

section Producers

variable {Setup Value : Type}

/-- The operand counts the assertions of `DefaultSymbolicStrategy::execute` let
through: the arity of a fixed-arity kernel, any count for a variadic one. -/
def Kernel.Accepts : Kernel Setup Value → Nat → Prop
  | .nullary _, count => count = 0
  | .unary _, count => count = 1
  | .binary _, count => count = 2
  | .ternary _, count => count = 3
  | .variadic _, _ => True

/-- Modelled from the spec: a kernel called on the values of an operation's
inputs in their order, the `k`-th value its `k`-th argument; a variadic kernel
on all of them. Any other count fails the arity assertion. -/
def Kernel.call : Kernel Setup Value → Placement → List Value → Except String (Lowering Setup Value)
  | .nullary closure, plc, [] => .ok (closure plc)
  | .unary closure, plc, [x0] => .ok (closure plc x0)
  | .binary closure, plc, [x0, x1] => .ok (closure plc x0 x1)
  | .ternary closure, plc, [x0, x1, x2] => .ok (closure plc x0 x1 x2)
  | .variadic closure, plc, operands => .ok (closure plc operands)
  | .nullary _, _, operands => .error (assertEqFailed operands.length 0)
  | .unary _, _, operands => .error (assertEqFailed operands.length 1)
  | .binary _, _, operands => .error (assertEqFailed operands.length 2)
  | .ternary _, _, operands => .error (assertEqFailed operands.length 3)

/-- Popping the operands off the back, the last first, hands the closure the
operands in the order of the inputs: `execute` calls every kernel as the spec
does, its panics included. -/
theorem Kernel.apply_eq_call (kernel : Kernel Setup Value) (plc : Placement) (operands : List Value) :
    kernel.apply plc operands = kernel.call plc operands := by
  cases kernel <;> rcases operands with _ | ⟨x0, _ | ⟨x1, _ | ⟨x2, _ | ⟨x3, rest⟩⟩⟩⟩ <;> rfl

/-- The call succeeds exactly when the kernel accepts the operand count. -/
theorem Kernel.call_ok_iff (kernel : Kernel Setup Value) (plc : Placement) (operands : List Value) :
    (∃ closure, kernel.call plc operands = .ok closure) ↔ kernel.Accepts operands.length := by
  constructor
  · rintro ⟨closure, called⟩
    unfold Kernel.call at called
    split at called <;> first | exact rfl | exact True.intro | cases called
  · intro accepts
    cases kernel with
    | nullary closure => rw [List.length_eq_zero.1 accepts]; exact ⟨_, rfl⟩
    | unary closure => obtain ⟨x0, rfl⟩ := List.length_eq_one.1 accepts; exact ⟨_, rfl⟩
    | binary closure => obtain ⟨x0, x1, rfl⟩ := List.length_eq_two.1 accepts; exact ⟨_, rfl⟩
    | ternary closure => obtain ⟨x0, x1, x2, rfl⟩ := List.length_eq_three.1 accepts; exact ⟨_, rfl⟩
    | variadic closure => exact ⟨_, rfl⟩

/-- Each operation's input count is accepted by the kernel compiled for its
operator and placement. -/
def ArityMatches (compileOp : Operator → Placement → Except Error (Kernel Setup Value))
    (computation : Computation) : Prop :=
  ∀ op ∈ computation.operations, ∀ kernel, compile compileOp op.kind op.placement = .ok kernel →
    kernel.Accepts op.inputs.length

/-- Modelled from the spec: the value produced by the most recent of the
operations walked that bears `name`. -/
def newestProduced (walked : List (Operation × Value)) (name : String) : Option Value :=
  ((walked.filter fun entry => entry.1.name = name).getLast?).map Prod.snd

/-- The executor's environment after walking `walked`: each operation's name
bound to its value, the latest binding first. -/
def environment (walked : List (Operation × Value)) : List (String × Value) :=
  (walked.map fun entry => (entry.1.name, entry.2)).reverse

/-- Modelled from the spec: the executor's loop with the operands read off the
operations walked so far, in the order of the inputs, each the value of the
most recent operation bearing its name. -/
def lowerFromProducers (compileOp : Operator → Placement → Except Error (Kernel Setup Value)) :
    List Operation → List (Operation × Value) → Lowering Setup (Except String Unit)
  | [], _ => .pure (.ok ())
  | op :: rest, walked =>
    match op.inputs.mapM (newestProduced walked) with
    | none => .pure (.error unwrapFailed)
    | some operands =>
      match compile compileOp op.kind op.placement with
      | .error error => .fail error
      | .ok kernel =>
        match kernel.call op.placement operands with
        | .error message => .pure (.error message)
        | .ok closure =>
          closure.bind fun result => lowerFromProducers compileOp rest (walked ++ [(op, result)])

/-- A traversal in `Option` that succeeds has one result per element, each
element's own. -/
theorem mapM_eq_some {α β : Type} {f : α → Option β} :
    ∀ {l : List α} {results : List β}, l.mapM f = some results →
      results.length = l.length ∧ ∀ a ∈ l, ∃ b, f a = some b
  | [], results, mapped => by
    cases mapped
    simp
  | a :: l, results, mapped => by
    simp only [List.mapM_cons, Option.pure_def, Option.bind_eq_bind, Option.bind_eq_some,
      Option.some.injEq] at mapped
    obtain ⟨b, found, rest, restMapped, rfl⟩ := mapped
    obtain ⟨sized, each⟩ := mapM_eq_some restMapped
    exact ⟨by simp [sized], fun a' mem => (List.mem_cons.1 mem).elim (fun same => same ▸ ⟨b, found⟩) (each a')⟩

/-- A traversal in `Option` succeeds when every element does. -/
theorem mapM_some {α β : Type} {f : α → Option β} :
    ∀ {l : List α}, (∀ a ∈ l, ∃ b, f a = some b) → ∃ results, l.mapM f = some results
  | [], _ => ⟨[], rfl⟩
  | a :: l, each => by
    obtain ⟨b, found⟩ := each a (List.mem_cons_self _ _)
    obtain ⟨results, mapped⟩ := mapM_some fun a' mem => each a' (List.mem_cons_of_mem _ mem)
    exact ⟨b :: results, by rw [List.mapM_cons, found, mapped]; rfl⟩

/-- The environment binds each name to the value of the newest operation
bearing it. -/
theorem lookup_environment (walked : List (Operation × Value)) (name : String) :
    (environment walked).lookup name = newestProduced walked name := by
  induction walked using List.reverseRecOn with
  | nil => rfl
  | append_singleton walked entry ih =>
    have bound : environment (walked ++ [entry]) = (entry.1.name, entry.2) :: environment walked := by
      simp [environment]
    rw [bound, List.lookup_cons]
    by_cases named : entry.1.name = name
    · simp [newestProduced, named]
    · rw [beq_false_of_ne (Ne.symm named), ih]
      simp [newestProduced, named]

/-- A name is produced exactly when an operation walked bears it. -/
theorem newestProduced_isSome_iff (walked : List (Operation × Value)) (name : String) :
    (newestProduced walked name).isSome ↔ name ∈ (walked.map Prod.fst).map Operation.name := by
  simp [newestProduced, List.getLast?_eq_none_iff, List.filter_eq_nil_iff, Option.isSome_iff_ne_none]

/-- Reading the inputs off the environment of a walk reads each off its newest
producer. -/
theorem operandValues_environment (walked : List (Operation × Value)) (inputs : List String) :
    operandValues (environment walked) inputs = inputs.mapM (newestProduced walked) :=
  congrArg (fun lookup => List.mapM lookup inputs) (funext (lookup_environment walked))

@[simp] theorem environment_append_singleton (walked : List (Operation × Value)) (op : Operation) (value : Value) :
    environment (walked ++ [(op, value)]) = (op.name, value) :: environment walked := by
  simp [environment]

variable {compileOp : Operator → Placement → Except Error (Kernel Setup Value)}
  {genSetup : ReplicatedPlacement → Emission Setup}

/-- The executor's loop is the spec's loop: from the environment of a walk, it
lowers the rest of the operations as the spec's loop does from the walk. -/
theorem lowerOperations_environment :
    ∀ (operations : List Operation) (walked : List (Operation × Value)),
      lowerOperations compileOp operations (environment walked) = lowerFromProducers compileOp operations walked
  | [], _ => rfl
  | op :: rest, walked => by
    rw [lowerOperations, lowerFromProducers, operandValues_environment]
    rcases op.inputs.mapM (newestProduced walked) with _ | operands
    · rfl
    dsimp only
    rcases compile compileOp op.kind op.placement with error | kernel
    · rfl
    dsimp only
    rw [Kernel.apply_eq_call]
    rcases kernel.call op.placement operands with message | closure
    · rfl
    refine congrArg closure.bind (funext fun result => ?_)
    rw [← lowerOperations_environment rest, environment_append_singleton]

/-- One operation of `runLoop` from the environment of a walk whose operands
are found, whose kernel compiles and accepts them, and whose closure returns. -/
theorem runLoop_cons_environment {op : Operation} {rest : List Operation} {walked : List (Operation × Value)}
    {state state' : SymbolicSessionState Setup} {operands : List Value} {kernel : Kernel Setup Value}
    {closure : Lowering Setup Value} {result : Value}
    (found : op.inputs.mapM (newestProduced walked) = some operands)
    (compiled : compile compileOp op.kind op.placement = .ok kernel)
    (applied : kernel.apply op.placement operands = .ok closure)
    (closed : closure.run genSetup state = (.ok result, state')) :
    runLoop compileOp genSetup (op :: rest) (environment walked) state =
      runLoop compileOp genSetup rest (environment (walked ++ [(op, result)])) state' := by
  rw [runLoop, operandValues_environment, found, environment_append_singleton]
  simp only [compiled, applied, closed]

/-- What lowering one operation can do: end the run with an error, panic on a
missing operand, panic on a refused operand count, or lower the operation and
go on with the rest. -/
theorem lowerFromProducers_run_cons {op : Operation} {rest : List Operation}
    {walked : List (Operation × Value)} {state : SymbolicSessionState Setup} {outcome : Except Error (Except String Unit)}
    (ran : ((lowerFromProducers compileOp (op :: rest) walked).run genSetup state).1 = outcome) :
    (∃ error, outcome = .error error) ∨
    (op.inputs.mapM (newestProduced walked) = none ∧ outcome = .ok (.error unwrapFailed)) ∨
    (∃ operands kernel, op.inputs.mapM (newestProduced walked) = some operands ∧
      compile compileOp op.kind op.placement = .ok kernel ∧ ¬kernel.Accepts operands.length ∧
      ∃ message, outcome = .ok (.error message)) ∨
    (∃ operands kernel result state', op.inputs.mapM (newestProduced walked) = some operands ∧
      compile compileOp op.kind op.placement = .ok kernel ∧ kernel.Accepts operands.length ∧
      ((lowerFromProducers compileOp rest (walked ++ [(op, result)])).run genSetup state').1 = outcome) := by
  rw [lowerFromProducers] at ran
  cases found : op.inputs.mapM (newestProduced walked) with
  | none =>
    simp only [found] at ran
    exact .inr (.inl ⟨rfl, ran.symm⟩)
  | some operands =>
    cases compiled : compile compileOp op.kind op.placement with
    | error error =>
      simp only [found, compiled] at ran
      exact .inl ⟨error, ran.symm⟩
    | ok kernel =>
      cases called : kernel.call op.placement operands with
      | error message =>
        simp only [found, compiled, called] at ran
        refine .inr (.inr (.inl ⟨operands, kernel, rfl, rfl, fun accepts => ?_, message, ran.symm⟩))
        obtain ⟨closure, ok⟩ := (kernel.call_ok_iff op.placement operands).2 accepts
        rw [called] at ok
        cases ok
      | ok closure =>
        simp only [found, compiled, called, Lowering.run_bind] at ran
        have accepts := (kernel.call_ok_iff op.placement operands).1 ⟨closure, called⟩
        rcases closed : closure.run genSetup state with ⟨_ | result, state'⟩
        · rw [closed] at ran
          exact .inl ⟨_, ran.symm⟩
        · rw [closed] at ran
          exact .inr (.inr (.inr ⟨operands, kernel, result, state', rfl, rfl, accepts, ran⟩))

/-- In a well-formed walk, every input of the next operation names an
operation walked, so its operands are all found, one per input. -/
theorem operands_found {walked : List (Operation × Value)} {op : Operation} {rest : List Operation}
    (wellFormed : Computation.WellFormed ⟨walked.map Prod.fst ++ op :: rest⟩) :
    ∃ operands, op.inputs.mapM (newestProduced walked) = some operands ∧ operands.length = op.inputs.length := by
  have atOp : (walked.map Prod.fst ++ op :: rest)[walked.length]? = some op := by
    rw [List.getElem?_append_right (by simp), List.length_map, Nat.sub_self, List.getElem?_cons_zero]
  obtain ⟨operands, found⟩ := mapM_some fun input mem => by
    obtain ⟨earlier, before, producer, atEarlier, named⟩ := wellFormed _ _ atOp input mem
    rw [List.getElem?_append_left (by simpa using before)] at atEarlier
    have produced := (newestProduced_isSome_iff walked input).2 (named ▸ List.mem_map_of_mem _ (List.getElem?_mem atEarlier))
    exact Option.isSome_iff_exists.1 produced
  exact ⟨operands, found, (mapM_eq_some found).1⟩

/-- With inputs that name earlier operations and operand counts the kernels
accept, the loop panics neither on a missing operand nor on an arity
assertion. -/
theorem lowerFromProducers_run_ne_panic :
    ∀ (operations : List Operation) (walked : List (Operation × Value)) (state : SymbolicSessionState Setup),
      Computation.WellFormed ⟨walked.map Prod.fst ++ operations⟩ →
      (∀ op ∈ operations, ∀ kernel, compile compileOp op.kind op.placement = .ok kernel →
        kernel.Accepts op.inputs.length) →
      ∀ message, ((lowerFromProducers compileOp operations walked).run genSetup state).1 ≠ .ok (.error message)
  | [], _, _, _, _, _ => fun ran => by cases ran
  | op :: rest, walked, state, wellFormed, arity, message => fun ran => by
    obtain ⟨operands, found, sized⟩ := operands_found wellFormed
    rcases lowerFromProducers_run_cons ran with
      ⟨_, failed⟩ | ⟨missing, -⟩ | ⟨operands', kernel, found', compiled, refused, -⟩ |
      ⟨_, _, result, state', -, -, -, continued⟩
    · cases failed
    · rw [found] at missing
      cases missing
    · rw [found] at found'
      cases found'
      exact refused (sized ▸ arity op (List.mem_cons_self _ _) kernel compiled)
    · refine lowerFromProducers_run_ne_panic rest _ state' (by simpa using wellFormed)
        (fun op' mem => arity op' (List.mem_cons_of_mem _ mem)) message continued

/-- A run of the loop that returns `Ok` found every operand, compiled every
kernel and passed every arity assertion: the walk and the operations form a
well-formed computation. -/
theorem lowerFromProducers_run_ok :
    ∀ (operations : List Operation) (walked : List (Operation × Value)) (state : SymbolicSessionState Setup),
      ((lowerFromProducers compileOp operations walked).run genSetup state).1 = .ok (.ok ()) →
      Computation.WellFormed ⟨walked.map Prod.fst⟩ →
      Computation.WellFormed ⟨walked.map Prod.fst ++ operations⟩ ∧
        ∀ op ∈ operations, ∃ kernel, compile compileOp op.kind op.placement = .ok kernel ∧
          kernel.Accepts op.inputs.length
  | [], _, _, _, wellFormed => ⟨by simpa using wellFormed, by simp⟩
  | op :: rest, walked, state, ran, wellFormed => by
    rcases lowerFromProducers_run_cons ran with
      ⟨_, failed⟩ | ⟨-, failed⟩ | ⟨_, _, -, -, -, _, failed⟩ |
      ⟨operands, kernel, result, state', found, compiled, accepts, continued⟩
    · cases failed
    · cases failed
    · cases failed
    · obtain ⟨sized, each⟩ := mapM_eq_some found
      have known : op.inputs ⊆ (walked.map Prod.fst).map Operation.name := fun input mem => by
        obtain ⟨value, produced⟩ := each input mem
        exact (newestProduced_isSome_iff walked input).1 (by simp [produced])
      have grown : Computation.WellFormed ⟨(walked ++ [(op, result)]).map Prod.fst⟩ := by
        rw [List.map_append]
        exact wellFormed.append known
      obtain ⟨wellFormed', lowered⟩ := lowerFromProducers_run_ok rest _ state' continued grown
      refine ⟨by simpa using wellFormed', fun op' mem => ?_⟩
      rcases List.mem_cons.1 mem with rfl | later
      · exact ⟨kernel, compiled, sized ▸ accepts⟩
      · exact lowered op' later

/-- The loop `run_computation` runs is the spec's loop from an empty walk. -/
theorem lowerOperations_eq_lowerFromProducers (operations : List Operation) :
    lowerOperations compileOp operations [] = lowerFromProducers compileOp operations [] :=
  lowerOperations_environment operations []

/-- `run_computation` fails with a panic of its loop or with a `Compilation`
error. -/
theorem runComputation_eq_error {computation : Computation} {failure : Failure}
    (failed : runComputation compileOp genSetup computation = .error failure) :
    (∃ message, failure = .panic message ∧
      ((lowerOperations compileOp computation.operations []).run genSetup .default).1 = .ok (.error message)) ∨
    ∃ message, failure = .error (.compilation message) := by
  unfold runComputation at failed
  split at failed <;> cases failed
  · exact .inr ⟨_, rfl⟩
  · rename_i ran
    exact .inl ⟨_, rfl, by rw [ran]⟩

/-- With inputs that name earlier operations and operand counts the kernels
accept, `run_computation` does not panic. -/
theorem runComputation_ne_panic {computation : Computation} (wellFormed : computation.WellFormed)
    (arity : ArityMatches compileOp computation) (message : String) :
    runComputation compileOp genSetup computation ≠ .error (.panic message) := fun panicked => by
  rcases runComputation_eq_error panicked with ⟨_, same, ran⟩ | ⟨_, wrong⟩
  · cases same
    rw [lowerOperations_eq_lowerFromProducers] at ran
    exact lowerFromProducers_run_ne_panic _ [] _ wellFormed arity _ ran
  · cases wrong

/-- `run_computation` returns `Ok` only when every input named an earlier
operation and every operation's kernel compiled and accepted its operands. -/
theorem runComputation_ok_compiled {computation lowered : Computation}
    (lowered_ok : runComputation compileOp genSetup computation = .ok lowered) :
    computation.WellFormed ∧ ∀ op ∈ computation.operations, ∃ kernel,
      compile compileOp op.kind op.placement = .ok kernel ∧ kernel.Accepts op.inputs.length := by
  obtain ⟨state, ran, -⟩ := runComputation_eq_ok lowered_ok
  rw [lowerOperations_eq_lowerFromProducers] at ran
  exact lowerFromProducers_run_ok _ [] _ (by rw [ran]) fun _ _ found => by simp at found

/-- With inputs that name earlier operations and operand counts the kernels
accept, a computation with a `SendOp` or a `ReceiveOp` fails to lower with a
`Compilation` error. -/
theorem runComputation_of_send {computation : Computation} (wellFormed : computation.WellFormed)
    (arity : ArityMatches compileOp computation) {op : Operation} (mem : op ∈ computation.operations)
    (refused : op.kind = .send ∨ op.kind = .receive) :
    ∃ message, runComputation compileOp genSetup computation = .error (.error (.compilation message)) := by
  cases ran : runComputation compileOp genSetup computation with
  | ok lowered =>
    obtain ⟨kernel, compiled, -⟩ := (runComputation_ok_compiled ran).2 op mem
    rcases refused with kind | kind <;> rw [kind] at compiled <;> cases compiled
  | error failure =>
    rcases runComputation_eq_error ran with ⟨message, rfl, -⟩ | ⟨message, rfl⟩
    · exact absurd ran (runComputation_ne_panic wellFormed arity message)
    · exact ⟨message, rfl⟩

end Producers

/-- `SymbolicExecutor::run_computation`. Its loop is the spec's loop, which
hands each kernel, in the order of the inputs, the values of the most recent
earlier operations bearing their names. When every input names an earlier
operation and every compiled kernel accepts its operand count, it panics
neither on a missing operand nor on an arity assertion, and a computation with
a `SendOp` or a `ReceiveOp` ends in a `Compilation` error. It returns `Ok` only
when every operand was found and every kernel compiled and accepted its
operands. -/
theorem run_computation_lowers_from_producers {Setup Value : Type}
    (compileOp : Operator → Placement → Except Error (Kernel Setup Value))
    (genSetup : ReplicatedPlacement → Emission Setup) :
    (∀ operations, lowerOperations compileOp operations [] = lowerFromProducers compileOp operations []) ∧
    (∀ computation : Computation, computation.WellFormed → ArityMatches compileOp computation →
      ∀ message, runComputation compileOp genSetup computation ≠ .error (.panic message)) ∧
    (∀ computation lowered : Computation, runComputation compileOp genSetup computation = .ok lowered →
      computation.WellFormed ∧ ∀ op ∈ computation.operations, ∃ kernel,
        compile compileOp op.kind op.placement = .ok kernel ∧ kernel.Accepts op.inputs.length) ∧
    (∀ computation : Computation, computation.WellFormed → ArityMatches compileOp computation →
      ∀ op ∈ computation.operations, op.kind = .send ∨ op.kind = .receive →
        ∃ message, runComputation compileOp genSetup computation = .error (.error (.compilation message))) :=
  ⟨lowerOperations_eq_lowerFromProducers, fun _ => runComputation_ne_panic,
    fun _ _ => runComputation_ok_compiled, fun _ wellFormed arity _ => runComputation_of_send wellFormed arity⟩

/-- `emitAll` compiles every operator it is asked for to a variadic kernel,
which accepts any operand count. -/
theorem emitAll_arity (computation : Computation) : ArityMatches emitAll computation := by
  intro op _ kernel compiled
  unfold compile at compiled
  split at compiled <;> cases compiled
  trivial

/-- An input, then a send of it. -/
def sendInput : Computation := ⟨[⟨"x", .input, [], alice⟩, ⟨"y", .send, ["x"], alice⟩]⟩

/-- Lowering the send of an input ends in a `Compilation` error. -/
theorem run_computation_lowers_from_producers_of_send :
    ∃ message, runComputation emitAll (fun _ => .pure ()) sendInput = .error (.error (.compilation message)) :=
  (run_computation_lowers_from_producers emitAll (fun _ => .pure ())).2.2.2 sendInput
    (show Computation.WellFormed ⟨[] ++ [⟨"x", .input, [], alice⟩] ++ [⟨"y", .send, ["x"], alice⟩]⟩ from
      (Computation.WellFormed.append (fun _ _ found => by simp at found) (by simp)).append (by simp))
    (emitAll_arity sendInput) ⟨"y", .send, ["x"], alice⟩ (by simp [sendInput]) (.inl rfl)

end Moose.Execution

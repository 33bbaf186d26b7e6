import Moose.Execution.Executor

/-!
# What the symbolic pass means

`SymbolicExecutor::run_computation` is a compiler pass: it turns a computation
into the operations its kernels emit. A computation means the values its
operations take when they are evaluated in order, each on the values of the
newest earlier operations its inputs name, under a semantics of the operators
that is a parameter here, and the pass keeps that meaning.

A kernel is sound for its operator when, run in a session whose operations
evaluate, on handles that name the operator's arguments, it returns a handle
that names the operator's value. When every compiled kernel is sound, the
executor's loop ends with an environment that binds each name of the source
to a handle of a lowered operation whose value is the source's value of the
name. The kernels that register their own operation, as the symbolic
kernels of runtime operators do, are sound, and for them the pass is a
renaming: operation `k` becomes `op_k`, each input names the newest earlier
operation bearing it, and the lowered computation evaluates to the values of
the source.
-/

namespace Moose.Execution

section Walks

variable {Value Value' : Type}

/-- The newest operation bearing a name is the last one walked when it bears
it, and otherwise the newest before it. -/
@[simp] theorem newestProduced_append_singleton (walked : List (Operation × Value)) (op : Operation)
    (value : Value) (name : String) :
    newestProduced (walked ++ [(op, value)]) name =
      if op.name = name then some value else newestProduced walked name := by
  by_cases named : op.name = name <;> simp [newestProduced, named]

/-- Operations walked later that bear other names do not change what a name
reads. -/
theorem newestProduced_append_of_not_mem (walked new : List (Operation × Value)) {name : String}
    (absent : name ∉ (new.map Prod.fst).map Operation.name) :
    newestProduced (walked ++ new) name = newestProduced walked name := by
  have none : new.filter (fun entry => entry.1.name = name) = [] :=
    List.filter_eq_nil_iff.2 fun entry mem named =>
      absent (List.mem_map.2 ⟨entry.1, List.mem_map_of_mem _ mem, of_decide_eq_true named⟩)
  simp only [newestProduced, List.filter_append, none, List.append_nil]

/-- Reading a name off a walk whose values are mapped maps the value read. -/
theorem newestProduced_map (walked : List (Operation × Value)) (f : Value → Value') (name : String) :
    newestProduced (walked.map fun entry => (entry.1, f entry.2)) name = (newestProduced walked name).map f := by
  induction walked using List.reverseRecOn with
  | nil => rfl
  | append_singleton walked entry ih =>
    rw [List.map_append, List.map_singleton, newestProduced_append_singleton, newestProduced_append_singleton, ih]
    split <;> rfl

theorem lookup_rel {R : Value → Value' → Prop} :
    ∀ {env : List (String × Value)} {env' : List (String × Value')},
      List.Forall₂ (fun binding binding' => binding.1 = binding'.1 ∧ R binding.2 binding'.2) env env' →
      ∀ name, Option.Rel R (env.lookup name) (env'.lookup name)
  | _, _, .nil, _ => .none
  | (key, _) :: _, (_, _) :: _, .cons ⟨rfl, related⟩ rest, name => by
    rw [List.lookup_cons, List.lookup_cons]
    cases name == key
    · exact lookup_rel rest name
    · exact .some related

/-- Two walks of the same operations with related values read related values
at every name. -/
theorem newestProduced_rel {R : Value → Value' → Prop} {walked : List (Operation × Value)}
    {walked' : List (Operation × Value')}
    (related : List.Forall₂ (fun entry entry' => entry.1 = entry'.1 ∧ R entry.2 entry'.2) walked walked')
    (name : String) : Option.Rel R (newestProduced walked name) (newestProduced walked' name) := by
  rw [← lookup_environment, ← lookup_environment]
  refine lookup_rel ?_ name
  rw [environment, environment, List.forall₂_reverse_iff, List.forall₂_map_left_iff, List.forall₂_map_right_iff]
  exact related.imp fun entry entry' ⟨same, rel⟩ => ⟨congrArg Operation.name same, rel⟩

/-- Traversals of one list with related results succeed together, with
related results. -/
theorem mapM_rel {γ : Type} {R : Value → Value' → Prop} {f : γ → Option Value} {g : γ → Option Value'} :
    ∀ {l : List γ}, (∀ a ∈ l, Option.Rel R (f a) (g a)) → Option.Rel (List.Forall₂ R) (l.mapM f) (l.mapM g)
  | [], _ => .some .nil
  | a :: l, related => by
    have rest : Option.Rel (List.Forall₂ R) (l.mapM f) (l.mapM g) :=
      mapM_rel fun b mem => related b (List.mem_cons_of_mem _ mem)
    have first := related a (List.mem_cons_self _ _)
    rw [List.mapM_cons, List.mapM_cons]
    revert first rest
    generalize f a = x; generalize g a = y; generalize l.mapM f = xs; generalize l.mapM g = ys
    rintro (rest | _) (first | _) <;> first | exact .some (.cons first rest) | exact .none

theorem mapM_eq_some_of_forall₂ {f : Value → Option Value'} :
    ∀ {l : List Value} {results : List Value'}, List.Forall₂ (fun a b => f a = some b) l results →
      l.mapM f = some results
  | _, _, .nil => rfl
  | _, _, .cons found rest => by rw [List.mapM_cons, found, mapM_eq_some_of_forall₂ rest]; rfl

theorem mapM_option_map {γ : Type} (f : γ → Option Value) (g : Value → Value') :
    ∀ l : List γ, l.mapM (fun a => (f a).map g) = (l.mapM f).map (List.map g)
  | [] => rfl
  | a :: l => by
    rw [List.mapM_cons, List.mapM_cons, mapM_option_map f g l]
    cases f a <;> cases l.mapM f <;> rfl

end Walks

/-! ## The meaning of a computation -/

section Evaluation

variable {V : Type} (sem : Operator → Placement → List V → Option V)

/-- Modelled from the spec: the meaning of a computation under a semantics
`sem` of its operators. The operations are evaluated in order, each on the
values of the newest earlier operations its inputs name; the walk pairs each
operation with its value. -/
def evaluate : List Operation → List (Operation × V) → Option (List (Operation × V))
  | [], walked => some walked
  | op :: rest, walked => do
    let operands ← op.inputs.mapM (newestProduced walked)
    let value ← sem op.kind op.placement operands
    evaluate rest (walked ++ [(op, value)])

/-- Evaluating two runs of operations evaluates the second from where the
first ended. -/
theorem evaluate_append (ops more : List Operation) : ∀ walked : List (Operation × V),
    evaluate sem (ops ++ more) walked = (evaluate sem ops walked).bind (evaluate sem more) := by
  induction ops with
  | nil => exact fun _ => rfl
  | cons op rest ih =>
    intro walked
    simp only [List.cons_append, evaluate, Option.bind_eq_bind, Option.bind_assoc, List.append_eq, ih]

/-- An evaluation extends the walk it starts from by one entry per operation. -/
theorem evaluate_eq_some : ∀ {ops : List Operation} {walked final : List (Operation × V)},
    evaluate sem ops walked = some final → ∃ new, final = walked ++ new ∧ new.map Prod.fst = ops
  | [], _, _, evaluated => ⟨[], by cases evaluated; simp, rfl⟩
  | op :: rest, walked, final, evaluated => by
    simp only [evaluate, Option.bind_eq_bind, Option.bind_eq_some] at evaluated
    obtain ⟨_, _, value, _, continued⟩ := evaluated
    obtain ⟨new, rfl, named⟩ := evaluate_eq_some continued
    exact ⟨(op, value) :: new, by simp, by simp [named]⟩

end Evaluation

/-! ## Names the session gives -/

/-- Every operation is named after its position, as `add_operation` names
them. -/
def NamedByPosition (ops : List Operation) : Prop :=
  ops.map Operation.name = (List.range ops.length).map opName

theorem NamedByPosition.push {ops : List Operation} (named : NamedByPosition ops) (kind : Operator)
    (inputs : List String) (plc : Placement) :
    NamedByPosition (ops ++ [⟨opName ops.length, kind, inputs, plc⟩]) := by
  unfold NamedByPosition at named ⊢
  simp [List.range_succ, named]

/-- Operations appended later carry names no earlier operation has. -/
theorem NamedByPosition.fresh {ops tail : List Operation} (named : NamedByPosition (ops ++ tail))
    {name : String} (old : name ∈ ops.map Operation.name) : name ∉ tail.map Operation.name := by
  rw [NamedByPosition, List.length_append, List.range_add, List.map_append, List.map_append, List.map_map] at named
  obtain ⟨before, after⟩ := List.append_inj named (by simp)
  rw [before] at old
  rw [after]
  obtain ⟨earlier, within, rfl⟩ := List.mem_map.1 old
  intro later
  obtain ⟨k, -, same⟩ := List.mem_map.1 later
  have : ops.length + k = earlier := opName_injective same
  simp only [List.mem_range] at within
  omega

section Runs

variable {Setup α : Type} (genSetup : ReplicatedPlacement → Emission Setup)

/-- A `gen_setup` run appends operations named after their positions. -/
theorem Emission.run_named (program : Emission α) (state : SymbolicSessionState Setup)
    (named : NamedByPosition state.ops) :
    ∃ tail, (program.run state).2.ops = state.ops ++ tail ∧ NamedByPosition (state.ops ++ tail) := by
  induction program generalizing state with
  | pure value => exact ⟨[], by simp [Emission.run], by simpa using named⟩
  | fail error => exact ⟨[], by simp [Emission.run], by simpa using named⟩
  | addOperation operator operands plc next ih =>
    obtain ⟨tail, grown, named'⟩ := ih _ (state.addOperation operator operands plc).2
      (by simpa using named.push operator operands plc)
    exact ⟨⟨opName state.ops.length, operator, operands, plc⟩ :: tail, by simpa [Emission.run] using grown,
      by simpa using named'⟩

/-- `setup` appends the operations `gen_setup` emitted, if it ran. -/
theorem SymbolicSessionState.setup_named (state : SymbolicSessionState Setup) (plc : ReplicatedPlacement)
    (named : NamedByPosition state.ops) :
    ∃ tail, (state.setup genSetup plc).2.ops = state.ops ++ tail ∧ NamedByPosition (state.ops ++ tail) := by
  unfold SymbolicSessionState.setup
  split
  · exact ⟨[], by simp, by simpa using named⟩
  · obtain ⟨tail, grown, named'⟩ := (genSetup plc).run_named state named
    refine ⟨tail, ?_, named'⟩
    rw [← grown]
    unfold insertGenerated
    split <;> simp_all

/-- A kernel closure appends operations named after their positions. -/
theorem Lowering.run_named (program : Lowering Setup α) (state : SymbolicSessionState Setup)
    (named : NamedByPosition state.ops) :
    ∃ tail, (program.run genSetup state).2.ops = state.ops ++ tail ∧ NamedByPosition (state.ops ++ tail) := by
  induction program generalizing state with
  | pure value => exact ⟨[], by simp [Lowering.run], by simpa using named⟩
  | fail error => exact ⟨[], by simp [Lowering.run], by simpa using named⟩
  | addOperation operator operands plc next ih =>
    obtain ⟨tail, grown, named'⟩ := ih _ (state.addOperation operator operands plc).2
      (by simpa using named.push operator operands plc)
    exact ⟨⟨opName state.ops.length, operator, operands, plc⟩ :: tail, by simpa [Lowering.run] using grown,
      by simpa using named'⟩
  | setup plc next ih =>
    obtain ⟨tail, grown, named'⟩ := state.setup_named genSetup plc named
    obtain ⟨tail', grown', named''⟩ :=
      ih (state.setup genSetup plc).1 (state.setup genSetup plc).2 (by rw [grown]; exact named')
    exact ⟨tail ++ tail', by rw [Lowering.run, grown', grown, List.append_assoc], by
      rwa [← List.append_assoc, ← grown]⟩

end Runs

/-! ## Walks that name the source's values -/

section Tracking

variable {V α : Type} {nameOf : α → String}

/-- A walk tracks the source's when it walks the same operations, each bound to
something that names, among the lowered operations evaluated to `lowered`,
the value the source gives the operation: a handle in the executor, a new
name in a renaming. -/
def Tracks (nameOf : α → String) (walked : List (Operation × α)) (source lowered : List (Operation × V)) : Prop :=
  List.Forall₂ (fun entry entry' => entry.1 = entry'.1 ∧ newestProduced lowered (nameOf entry.2) = some entry'.2)
    walked source

/-- What an operation's inputs read off a tracking walk names what they read
in the source, and the reads fail together. -/
theorem Tracks.operands {walked : List (Operation × α)} {source lowered : List (Operation × V)}
    (tracks : Tracks nameOf walked source lowered) {inputs : List String} {operands : List α}
    (found : inputs.mapM (newestProduced walked) = some operands) :
    operands.mapM (fun entry => newestProduced lowered (nameOf entry)) = inputs.mapM (newestProduced source) := by
  have related := mapM_rel (l := inputs) fun input _ =>
    newestProduced_rel (R := fun (entry : α) (value : V) => newestProduced lowered (nameOf entry) = some value)
      tracks input
  rw [found] at related
  generalize inputs.mapM (newestProduced source) = args at related ⊢
  cases related with
  | some pointwise => exact mapM_eq_some_of_forall₂ pointwise

/-- Operations evaluated later under fresh names keep what each entry names. -/
theorem Tracks.append_fresh {walked : List (Operation × α)} {source lowered : List (Operation × V)}
    (tracks : Tracks nameOf walked source lowered) {new : List (Operation × V)}
    (fresh : ∀ name ∈ (lowered.map Prod.fst).map Operation.name, name ∉ (new.map Prod.fst).map Operation.name) :
    Tracks nameOf walked source (lowered ++ new) :=
  tracks.imp fun _ _ ⟨same, named⟩ => ⟨same, by
    rw [newestProduced_append_of_not_mem _ _ (fresh _ ((newestProduced_isSome_iff _ _).1 (by simp [named])))]
    exact named⟩

theorem Tracks.push {walked : List (Operation × α)} {source lowered : List (Operation × V)}
    (tracks : Tracks nameOf walked source lowered) (op : Operation) {entry : α} {value : V}
    (named : newestProduced lowered (nameOf entry) = some value) :
    Tracks nameOf (walked ++ [(op, entry)]) (source ++ [(op, value)]) lowered :=
  List.rel_append tracks (.cons ⟨rfl, named⟩ .nil)

/-- The environment of a tracking walk binds every name the source binds to
something naming the source's value of it, and no other name. -/
theorem Tracks.lookup_bind {walked : List (Operation × α)} {source lowered : List (Operation × V)}
    (tracks : Tracks nameOf walked source lowered) (name : String) :
    ((environment walked).lookup name).bind (fun entry => newestProduced lowered (nameOf entry)) =
      newestProduced source name := by
  have related := newestProduced_rel
    (R := fun (entry : α) (value : V) => newestProduced lowered (nameOf entry) = some value) tracks name
  rw [lookup_environment]
  generalize newestProduced walked name = bound at related ⊢
  generalize newestProduced source name = value at related ⊢
  cases related with
  | none => rfl
  | some named => exact named

end Tracking

/-! ## Sound kernels keep the meaning -/

section Sound

variable {Setup V : Type} (sem : Operator → Placement → List V → Option V)
  (genSetup : ReplicatedPlacement → Emission Setup)

/-- A kernel that computes its operator: called on handles that name values
`args` of a session's operations, it ends in a session whose operations still
evaluate and returns a handle that names the operator's value on `args`. -/
def Kernel.Sound (op : Operator) (kernel : Kernel Setup (SymbolicHandle Placement)) : Prop :=
  ∀ plc operands closure, kernel.apply plc operands = .ok closure →
    ∀ (state state' : SymbolicSessionState Setup) (walked : List (Operation × V)) (args : List V) (value : V)
      (result : SymbolicHandle Placement),
      NamedByPosition state.ops → evaluate sem state.ops [] = some walked →
      operands.mapM (fun handle => newestProduced walked handle.op) = some args →
      sem op plc args = some value → closure.run genSetup state = (.ok result, state') →
      ∃ walked', evaluate sem state'.ops [] = some walked' ∧ newestProduced walked' result.op = some value

variable {sem}

variable {compileOp : Operator → Placement → Except Error (Kernel Setup (SymbolicHandle Placement))}
  {genSetup}

/-- What a run of the loop that returns `Ok` did with its first operation: it
found the operands, compiled the kernel, passed the arity assertion, ran the
closure and went on from the session the closure left. -/
theorem lowerFromProducers_run_ok_cons {Value : Type}
    {compileOp : Operator → Placement → Except Error (Kernel Setup Value)} {op : Operation}
    {rest : List Operation} {walked : List (Operation × Value)} {state final : SymbolicSessionState Setup}
    (ran : (lowerFromProducers compileOp (op :: rest) walked).run genSetup state = (.ok (.ok ()), final)) :
    ∃ operands kernel closure result state', op.inputs.mapM (newestProduced walked) = some operands ∧
      compile compileOp op.kind op.placement = .ok kernel ∧ kernel.apply op.placement operands = .ok closure ∧
      closure.run genSetup state = (.ok result, state') ∧
      (lowerFromProducers compileOp rest (walked ++ [(op, result)])).run genSetup state' = (.ok (.ok ()), final) := by
  rw [lowerFromProducers] at ran
  cases found : op.inputs.mapM (newestProduced walked) with
  | none => simp only [found, Lowering.run, Prod.mk.injEq] at ran; cases ran.1
  | some operands =>
    cases compiled : compile compileOp op.kind op.placement with
    | error error => simp only [found, compiled, Lowering.run, Prod.mk.injEq] at ran; cases ran.1
    | ok kernel =>
      cases called : kernel.call op.placement operands with
      | error message => simp only [found, compiled, called, Lowering.run, Prod.mk.injEq] at ran; cases ran.1
      | ok closure =>
        simp only [found, compiled, called, Lowering.run_bind] at ran
        rcases closed : closure.run genSetup state with ⟨_ | result, state'⟩ <;> rw [closed] at ran
        · cases ran
        · exact ⟨operands, kernel, closure, result, state', rfl, rfl, (kernel.apply_eq_call _ _).trans called, closed,
            ran⟩

/-- With sound kernels, a run of the loop that returns `Ok` keeps the
executor's walk tracking the source's, to the end of the source's evaluation,
and the executor's loop ends with the environment of that walk. -/
theorem lowerFromProducers_tracks
    (sound : ∀ op plc kernel, compile compileOp op plc = .ok kernel → kernel.Sound sem genSetup op) :
    ∀ (ops : List Operation) (run : List (Operation × SymbolicHandle Placement)) (source lowered : List (Operation × V))
      (state final : SymbolicSessionState Setup) (sourceFinal : List (Operation × V)),
      NamedByPosition state.ops → evaluate sem state.ops [] = some lowered → Tracks SymbolicHandle.op run source lowered →
      (lowerFromProducers compileOp ops run).run genSetup state = (.ok (.ok ()), final) →
      evaluate sem ops source = some sourceFinal →
      ∃ (runFinal : List (Operation × SymbolicHandle Placement)) (loweredFinal : List (Operation × V)),
        evaluate sem final.ops [] = some loweredFinal ∧ Tracks SymbolicHandle.op runFinal sourceFinal loweredFinal ∧
        runLoop compileOp genSetup ops (environment run) state = (.ok (.ok (environment runFinal)), final)
  | [], run, _, lowered, _, _, _, _, evaluated, tracks, ran, sourceRan => by
    cases ran
    cases sourceRan
    exact ⟨run, lowered, evaluated, tracks, rfl⟩
  | op :: rest, run, source, lowered, state, final, sourceFinal, named, evaluated, tracks, ran, sourceRan => by
    obtain ⟨operands, kernel, closure, result, state', found, compiled, applied, closed, continued⟩ :=
      lowerFromProducers_run_ok_cons ran
    simp only [evaluate, Option.bind_eq_bind, Option.bind_eq_some] at sourceRan
    obtain ⟨args, found', value, valued, sourceRest⟩ := sourceRan
    obtain ⟨lowered', evaluated', named'⟩ := sound _ _ _ compiled _ _ _ applied state state' lowered args value result
      named evaluated ((tracks.operands found).trans found') valued closed
    obtain ⟨tail, grown, namedTail⟩ := closure.run_named genSetup state named
    rw [closed] at grown
    rw [grown, evaluate_append, evaluated] at evaluated'
    obtain ⟨new, rfl, newOps⟩ := evaluate_eq_some sem evaluated'
    have loweredOps : lowered.map Prod.fst = state.ops := by
      obtain ⟨new0, rfl, ops0⟩ := evaluate_eq_some sem evaluated
      simpa using ops0
    have fresh : ∀ name ∈ (lowered.map Prod.fst).map Operation.name, name ∉ (new.map Prod.fst).map Operation.name := by
      rw [loweredOps, newOps]
      exact fun name old => namedTail.fresh old
    obtain ⟨runFinal, loweredFinal, evaluatedFinal, tracksFinal, looped⟩ :=
      lowerFromProducers_tracks sound rest _ _ _ state' final sourceFinal (by rw [grown]; exact namedTail)
        (by rw [grown, evaluate_append, evaluated]; exact evaluated')
        ((tracks.append_fresh fresh).push op named') continued sourceRest
    exact ⟨runFinal, loweredFinal, evaluatedFinal, tracksFinal,
      (runLoop_cons_environment found compiled applied closed).trans looped⟩

/-- A kernel that registers its operator: one new operation on the op names of
its operands' handles, at the placement it is called with, returning the
handle `add_operation` gives back. The symbolic kernels of runtime operators
do this on symbolic operands. -/
def Kernel.Registers (op : Operator) (kernel : Kernel Setup (SymbolicHandle Placement)) : Prop :=
  ∀ plc operands closure, kernel.apply plc operands = .ok closure →
    closure = .addOperation op (operands.map SymbolicHandle.op) plc .pure

theorem mapM_map_eq {γ δ : Type} (f : δ → Option V) (g : γ → δ) :
    ∀ l : List γ, (l.map g).mapM f = l.mapM fun a => f (g a)
  | [] => rfl
  | a :: l => by rw [List.map_cons, List.mapM_cons, List.mapM_cons, mapM_map_eq f g l]

/-- A kernel that registers its operator computes it, whatever the operator
means. -/
theorem Kernel.Registers.sound {op : Operator} {kernel : Kernel Setup (SymbolicHandle Placement)}
    (registers : kernel.Registers op) : kernel.Sound sem genSetup op := by
  intro plc operands closure applied state state' walked args value result _ evaluated found valued ran
  rw [registers plc operands closure applied] at ran
  simp only [Lowering.run, SymbolicSessionState.addOperation_handle, Prod.mk.injEq, Except.ok.injEq] at ran
  obtain ⟨rfl, rfl⟩ := ran
  refine ⟨walked ++ [(⟨opName state.ops.length, op, operands.map SymbolicHandle.op, plc⟩, value)], ?_, by simp⟩
  rw [SymbolicSessionState.addOperation_ops, evaluate_append, evaluated]
  simp only [evaluate, mapM_map_eq, found, valued, Option.bind_eq_bind, Option.some_bind]

end Sound

/-- `emitAll` compiles every operator it is asked for to a kernel that
registers it. -/
theorem emitAll_registers (op : Operator) (plc : Placement) (kernel : Kernel Unit (SymbolicHandle Placement))
    (compiled : compile emitAll op plc = .ok kernel) : kernel.Registers op := by
  unfold compile at compiled
  intro plc operands closure applied
  split at compiled <;> cases compiled
  cases applied
  rfl

/-- A meaning for the operators of `negateInput`: an input is 3, a negation
negates its operand. -/
def negateMeaning : Operator → Placement → List Int → Option Int
  | .neg, _, [x] => some (-x)
  | .input, _, [] => some 3
  | _, _, _ => none

/-- Modelled from the spec: the computation the pass emits when every kernel
registers its own operation. Operation `k` is named `op_k` and each input is
renamed to the name given to the newest earlier operation bearing it; `none`
when an input names no earlier operation. The walk pairs the operations
renamed so far with their new names. -/
def renameOperations : List Operation → List (Operation × String) → Option (List Operation)
  | [], _ => some []
  | op :: rest, renamed => do
    let inputs ← op.inputs.mapM (newestProduced renamed)
    let lowered ← renameOperations rest (renamed ++ [(op, opName renamed.length)])
    pure (⟨opName renamed.length, op.kind, inputs, op.placement⟩ :: lowered)

/-- A name's newest producer in the executor's walk carries the new name the
renaming gives it. -/
theorem mapM_newestProduced_names (run : List (Operation × SymbolicHandle Placement)) (inputs : List String) :
    inputs.mapM (newestProduced (run.map fun entry => (entry.1, entry.2.op))) =
      (inputs.mapM (newestProduced run)).map (List.map SymbolicHandle.op) := by
  rw [← mapM_option_map]
  exact congrArg (fun read => List.mapM read inputs) (funext (newestProduced_map run SymbolicHandle.op))

theorem NamedByPosition.not_mem_length {ops : List Operation} (named : NamedByPosition ops) :
    opName ops.length ∉ ops.map Operation.name := fun mem => by
  rw [named] at mem
  obtain ⟨earlier, within, same⟩ := List.mem_map.1 mem
  have : earlier = ops.length := opName_injective same
  simp only [List.mem_range] at within
  omega

section Renaming

variable {Setup : Type} {compileOp : Operator → Placement → Except Error (Kernel Setup (SymbolicHandle Placement))}
  {genSetup : ReplicatedPlacement → Emission Setup}
  (registers : ∀ op plc kernel, compile compileOp op plc = .ok kernel → kernel.Registers op)
include registers

/-- With registering kernels, a loop whose kernels compile and accept their
operands, on operations whose inputs name earlier ones, returns `Ok` and
appends the renamed operations. -/
theorem lowerFromProducers_run_registered :
    ∀ (ops : List Operation) (run : List (Operation × SymbolicHandle Placement)) (state : SymbolicSessionState Setup)
      (lowered : List Operation), state.ops.length = run.length →
      (∀ op ∈ ops, ∃ kernel, compile compileOp op.kind op.placement = .ok kernel ∧ kernel.Accepts op.inputs.length) →
      renameOperations ops (run.map fun entry => (entry.1, entry.2.op)) = some lowered →
      ∃ final, (lowerFromProducers compileOp ops run).run genSetup state = (.ok (.ok ()), final) ∧
        final.ops = state.ops ++ lowered
  | [], _, state, _, _, _, renamed => by
    cases renamed
    exact ⟨state, rfl, by simp⟩
  | op :: rest, run, state, lowered, sized, compiles, renamed => by
    simp only [renameOperations, Option.bind_eq_bind, Option.bind_eq_some, mapM_newestProduced_names,
      Option.map_eq_some', Option.pure_def, Option.some.injEq] at renamed
    obtain ⟨_, ⟨operands, found, rfl⟩, lowered', renamedRest, rfl⟩ := renamed
    obtain ⟨kernel, compiled, accepts⟩ := compiles op (List.mem_cons_self _ _)
    obtain ⟨closure, called⟩ :=
      (kernel.call_ok_iff op.placement operands).2 ((mapM_eq_some found).1 ▸ accepts)
    have applied := (kernel.apply_eq_call op.placement operands).trans called
    obtain ⟨final, ran, grown⟩ := lowerFromProducers_run_registered rest
      (run ++ [(op, ⟨opName state.ops.length, op.placement⟩)])
      (state.addOperation op.kind (operands.map SymbolicHandle.op) op.placement).2 lowered' (by simp [sized])
      (fun op' mem => compiles op' (List.mem_cons_of_mem _ mem)) (by simpa [sized] using renamedRest)
    refine ⟨final, ?_, by simp [grown, sized]⟩
    rw [lowerFromProducers]
    simp only [found, compiled, called, registers _ _ _ compiled _ _ _ applied, Lowering.run_bind, Lowering.run,
      SymbolicSessionState.addOperation_handle]
    exact ran

/-- With registering kernels, a loop that returns `Ok` appended the renamed
operations. -/
theorem renamed_of_lowerFromProducers_run :
    ∀ (ops : List Operation) (run : List (Operation × SymbolicHandle Placement)) (state final : SymbolicSessionState Setup),
      state.ops.length = run.length →
      (lowerFromProducers compileOp ops run).run genSetup state = (.ok (.ok ()), final) →
      ∃ lowered, renameOperations ops (run.map fun entry => (entry.1, entry.2.op)) = some lowered ∧
        final.ops = state.ops ++ lowered
  | [], _, state, _, _, ran => by
    cases ran
    exact ⟨[], rfl, by simp⟩
  | op :: rest, run, state, final, sized, ran => by
    obtain ⟨operands, kernel, closure, result, state', found, compiled, applied, closed, continued⟩ :=
      lowerFromProducers_run_ok_cons ran
    rw [registers _ _ _ compiled _ _ _ applied] at closed
    simp only [Lowering.run, SymbolicSessionState.addOperation_handle, Prod.mk.injEq, Except.ok.injEq] at closed
    obtain ⟨rfl, rfl⟩ := closed
    obtain ⟨lowered, renamed, grown⟩ := renamed_of_lowerFromProducers_run rest _ _ final (by simp [sized]) continued
    refine ⟨⟨opName state.ops.length, op.kind, operands.map SymbolicHandle.op, op.placement⟩ :: lowered, ?_,
      by simp [grown]⟩
    simp only [List.map_append, List.map_singleton, sized] at renamed
    simp only [renameOperations, Option.bind_eq_bind, mapM_newestProduced_names, found, Option.map_some',
      Option.some_bind, List.length_map, sized, renamed]
    rfl

end Renaming

section RenamedMeaning

variable {V : Type} (sem : Operator → Placement → List V → Option V)

/-- A renamed computation evaluates to the values of the source, operation by
operation, or fails where the source fails. -/
theorem evaluate_renameOperations :
    ∀ (ops : List Operation) (renamed : List (Operation × String)) (source lowered : List (Operation × V))
      (result : List Operation), renameOperations ops renamed = some result →
      Tracks id renamed source lowered → NamedByPosition (lowered.map Prod.fst) →
      lowered.map Prod.snd = source.map Prod.snd →
      (evaluate sem result lowered).map (List.map Prod.snd) = (evaluate sem ops source).map (List.map Prod.snd)
  | [], _, _, _, _, renamedOk, _, _, values => by
    cases renamedOk
    simpa [evaluate] using values
  | op :: rest, renamed, source, lowered, result, renamedOk, tracks, named, values => by
    simp only [renameOperations, Option.bind_eq_bind, Option.bind_eq_some, Option.pure_def,
      Option.some.injEq] at renamedOk
    obtain ⟨inputs, found, result', renamedRest, rfl⟩ := renamedOk
    have sized : lowered.length = renamed.length := by
      rw [← List.length_map lowered Prod.snd, values, List.length_map, tracks.length_eq]
    have operands : inputs.mapM (newestProduced lowered) = op.inputs.mapM (newestProduced source) :=
      tracks.operands found
    simp only [evaluate, Option.bind_eq_bind, operands]
    cases op.inputs.mapM (newestProduced source) with
    | none => rfl
    | some args =>
      simp only [Option.some_bind]
      cases sem op.kind op.placement args with
      | none => rfl
      | some value =>
        simp only [Option.some_bind]
        have fresh : opName renamed.length ∉ (lowered.map Prod.fst).map Operation.name := by
          simpa [sized] using named.not_mem_length
        have fresh' : ∀ name ∈ (lowered.map Prod.fst).map Operation.name, name ∉
            ([(⟨opName renamed.length, op.kind, inputs, op.placement⟩, value)].map Prod.fst).map Operation.name := by
          intro name old same
          simp only [List.map_cons, List.map_nil, List.mem_singleton] at same
          exact fresh (same ▸ old)
        exact evaluate_renameOperations rest _ _ _ result' renamedRest
          ((tracks.append_fresh fresh').push op (by simp)) (by simpa [sized] using named.push op.kind inputs op.placement)
          (by simp [values])

end RenamedMeaning

/-- When every kernel registers its own operation, `run_computation` is a
renaming. It returns `Ok` exactly when every operation's kernel compiles and
accepts its operand count and every input names an earlier operation, and it
then returns the source with operation `k` named `op_k` and each input
renamed to the name of the newest earlier operation bearing it. Under every
semantics of the operators, the lowered computation evaluates to the values
of the source, operation by operation, and fails to evaluate exactly when the
source does. -/
theorem registering_kernels_rename {Setup : Type}
    (compileOp : Operator → Placement → Except Error (Kernel Setup (SymbolicHandle Placement)))
    (genSetup : ReplicatedPlacement → Emission Setup)
    (registers : ∀ op plc kernel, compile compileOp op plc = .ok kernel → kernel.Registers op)
    (computation lowered : Computation) :
    (runComputation compileOp genSetup computation = .ok lowered ↔
      (∀ op ∈ computation.operations, ∃ kernel, compile compileOp op.kind op.placement = .ok kernel ∧
        kernel.Accepts op.inputs.length) ∧
      renameOperations computation.operations [] = some lowered.operations) ∧
    ∀ {V : Type} (sem : Operator → Placement → List V → Option V),
      runComputation compileOp genSetup computation = .ok lowered →
      (evaluate sem lowered.operations []).map (List.map Prod.snd) =
        (evaluate sem computation.operations []).map (List.map Prod.snd) := by
  have renamed : runComputation compileOp genSetup computation = .ok lowered →
      renameOperations computation.operations [] = some lowered.operations := fun lowered_ok => by
    obtain ⟨state, ran, operations⟩ := runComputation_eq_ok lowered_ok
    rw [lowerOperations_eq_lowerFromProducers] at ran
    obtain ⟨renamed, renamedOk, grown⟩ := renamed_of_lowerFromProducers_run registers _ [] .default state rfl ran
    rw [operations, grown]
    exact renamedOk
  refine ⟨⟨fun lowered_ok => ⟨(runComputation_ok_compiled lowered_ok).2, renamed lowered_ok⟩, fun ⟨compiles, renamedOk⟩ => ?_⟩,
    fun sem lowered_ok => evaluate_renameOperations sem _ [] [] [] _ (renamed lowered_ok) List.Forall₂.nil rfl rfl⟩
  obtain ⟨final, ran, grown⟩ :=
    lowerFromProducers_run_registered registers _ [] SymbolicSessionState.default _ rfl compiles renamedOk
  unfold runComputation
  rw [lowerOperations_eq_lowerFromProducers, ran]
  show Except.ok (Computation.mk final.ops) = _
  rw [grown]
  rfl

/-- Lowering an input and its negation by `emitAll` renames them `op_0` and
`op_1`. -/
theorem registering_kernels_rename_of_negateInput :
    renameOperations negateInput.operations [] =
      some [⟨"op_0", .input, [], alice⟩, ⟨"op_1", .neg, ["op_0"], alice⟩] :=
  ((registering_kernels_rename emitAll (fun _ => .pure ()) emitAll_registers negateInput _).1.1 rfl).2

end Moose.Execution

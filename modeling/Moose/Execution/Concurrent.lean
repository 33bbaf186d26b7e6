import Moose.Execution.Session

/-!
# Threads sharing one symbolic session

Any number of threads run kernel programs against one `SymbolicSession`.
Each call a thread makes on the session is one atomic step under the
session's lock: an `add_operation` (write lock), the read-locked lookup of
`setup`, and its write-locked insert once `gen_setup` returned. Between their
steps the threads interleave in any order. The history records what each step
saw, in lock order; it is a ghost, the code keeps none.

The invariant of every reachable session gives two results. The ops vector is
the list of the operations the `add_operation` calls appended, in lock order,
each named after its position. The replicated-setup cache has at most one entry
per placement, put there by the first insert for it, and every `setup` call
that returns `Ok` returns that entry. Last, the sequential runs of
`Moose.Execution.Session` are runs of one thread here.
-/

namespace Moose.Execution

/-- What one thread is doing: running a kernel program, inside `setup` for a
placement while its `gen_setup` runs, or done. -/
inductive Thread (Setup α : Type) where
  | running (program : Lowering Setup α)
  | generating (plc : ReplicatedPlacement) (generation : Emission Setup)
      (next : Except Error (Arc Setup) → Lowering Setup α)
  | finished (result : Except Error α)

/-- One step as the session saw it: an `add_operation` call and the handle it
returned; a `setup` call that found an entry, inserted its own, found that
another caller had inserted first, or whose `gen_setup` failed. -/
inductive SessionEvent (Setup : Type) where
  | added (thread : Nat) (operator : Operator) (operands : List String) (plc : Placement)
      (handle : SymbolicHandle Placement)
  | found (thread : Nat) (plc : ReplicatedPlacement) (arc : Arc Setup)
  | inserted (thread : Nat) (plc : ReplicatedPlacement) (arc : Arc Setup)
  | raced (thread : Nat) (plc : ReplicatedPlacement) (arc : Arc Setup)
  | failed (thread : Nat) (plc : ReplicatedPlacement) (error : Error)

section Events

variable {Setup : Type}

/-- The operation an `add_operation` call appended, named by the handle it
returned. -/
def SessionEvent.emitted : SessionEvent Setup → Option Operation
  | .added _ operator operands plc handle => some ⟨handle.op, operator, operands, plc⟩
  | _ => none

/-- Whether the entry a `setup` call returned `Ok` with is the one `keys` holds
for its placement. -/
def SessionEvent.ReturnsCurrent (keys : ReplicatedPlacement → Option (Arc Setup)) :
    SessionEvent Setup → Prop
  | .found _ plc arc | .inserted _ plc arc | .raced _ plc arc => keys plc = some arc
  | _ => True

theorem SessionEvent.ReturnsCurrent.mono {keys keys' : ReplicatedPlacement → Option (Arc Setup)}
    {event : SessionEvent Setup} (current : event.ReturnsCurrent keys)
    (grown : ∀ {plc arc}, keys plc = some arc → keys' plc = some arc) : event.ReturnsCurrent keys' := by
  cases event <;> first | exact grown current | trivial

/-- The placement a write-locked insert of `setup` was for. -/
def SessionEvent.insertFor : SessionEvent Setup → Option ReplicatedPlacement
  | .inserted _ plc _ | .raced _ plc _ => some plc
  | _ => none

end Events

/-- A session shared by threads: its locked state, each thread's stage, and the
ghost history. -/
structure Session (Setup α : Type) where
  state : SymbolicSessionState Setup
  threads : Nat → Thread Setup α
  history : List (SessionEvent Setup)

/-- The outputs of `gen_setup` runs: what a run ends with for some handles
`add_operation` returns along the way. -/
inductive Emission.Yields {α : Type} : Emission α → α → Prop
  | pure {value} : Yields (.pure value) value
  | addOperation {operator operands plc next value} (handle : SymbolicHandle Placement)
      (yields : Yields (next handle) value) : Yields (.addOperation operator operands plc next) value

section Model

variable {Setup α : Type}

/-- A fresh session in which thread `t` is about to run `programs t`. -/
def Session.start (programs : Nat → Lowering Setup α) : Session Setup α :=
  ⟨.default, fun thread => .running (programs thread), []⟩

/-- The session after `thread` took a step: the new state, the thread's next
stage, and the events the step adds to the history. -/
def Session.move (session : Session Setup α) (thread : Nat) (stage : Thread Setup α)
    (state : SymbolicSessionState Setup) (events : List (SessionEvent Setup)) : Session Setup α :=
  ⟨state, Function.update session.threads thread stage, session.history ++ events⟩

@[simp] theorem Session.move_state (session : Session Setup α) (thread stage state events) :
    (session.move thread stage state events).state = state := rfl

@[simp] theorem Session.move_threads (session : Session Setup α) (thread stage state events) :
    (session.move thread stage state events).threads = Function.update session.threads thread stage :=
  rfl

@[simp] theorem Session.move_history (session : Session Setup α) (thread stage state events) :
    (session.move thread stage state events).history = session.history ++ events := rfl

/-- One step of `thread`: its next call on the session, each under the lock,
or the end of its program. A finished thread takes no step. -/
def threadStep (genSetup : ReplicatedPlacement → Emission Setup) (session : Session Setup α)
    (thread : Nat) : Option (Session Setup α) :=
  match session.threads thread with
  | .running (.pure value) => some (session.move thread (.finished (.ok value)) session.state [])
  | .running (.fail error) => some (session.move thread (.finished (.error error)) session.state [])
  | .running (.addOperation operator operands plc next) =>
    let added := session.state.addOperation operator operands plc
    some (session.move thread (.running (next added.1)) added.2
      [.added thread operator operands plc added.1])
  | .running (.setup plc next) =>
    match session.state.replicatedKeys plc with
    | some arc => some (session.move thread (.running (next (.ok arc))) session.state
        [.found thread plc arc])
    | none => some (session.move thread (.generating plc (genSetup plc) next) session.state [])
  | .generating plc (.pure newSetup) next =>
    match session.state.replicatedKeys plc with
    | some arc => some (session.move thread (.running (next (.ok arc))) session.state
        [.raced thread plc arc])
    | none =>
      let inserted := session.state.insertSetup plc newSetup
      some (session.move thread (.running (next (.ok inserted.1))) inserted.2
        [.inserted thread plc inserted.1])
  | .generating plc (.fail error) next =>
    some (session.move thread (.running (next (.error error))) session.state
      [.failed thread plc error])
  | .generating plc (.addOperation operator operands opPlc generation) next =>
    let added := session.state.addOperation operator operands opPlc
    some (session.move thread (.generating plc (generation added.1) next) added.2
      [.added thread operator operands opPlc added.1])
  | .finished _ => none

/-- The sessions the threads reach from the start, in any interleaving. -/
inductive Reachable (genSetup : ReplicatedPlacement → Emission Setup)
    (programs : Nat → Lowering Setup α) : Session Setup α → Prop
  | start : Reachable genSetup programs (Session.start programs)
  | step {session next : Session Setup α} (thread : Nat) :
      Reachable genSetup programs session → threadStep genSetup session thread = some next →
      Reachable genSetup programs next

/-- Steps of one thread alone. -/
def Steps (genSetup : ReplicatedPlacement → Emission Setup) (thread : Nat) :
    Session Setup α → Session Setup α → Prop :=
  Relation.ReflTransGen fun session next => threadStep genSetup session thread = some next

theorem Reachable.steps {genSetup : ReplicatedPlacement → Emission Setup}
    {programs : Nat → Lowering Setup α} {session after : Session Setup α} {thread : Nat}
    (reachable : Reachable genSetup programs session) (steps : Steps genSetup thread session after) :
    Reachable genSetup programs after := by
  induction steps with
  | refl => exact reachable
  | tail _ stepped ih => exact .step thread ih stepped

/-- Everything one step of `thread` can do, with the guard it takes. -/
inductive Transition (genSetup : ReplicatedPlacement → Emission Setup) (session : Session Setup α)
    (thread : Nat) : Session Setup α → Prop
  | finish {value : α} (returned : session.threads thread = .running (.pure value)) :
      Transition genSetup session thread (session.move thread (.finished (.ok value)) session.state [])
  | abort {error : Error} (failed : session.threads thread = .running (.fail error)) :
      Transition genSetup session thread
        (session.move thread (.finished (.error error)) session.state [])
  | add {operator operands plc next}
      (calling : session.threads thread = .running (.addOperation operator operands plc next)) :
      Transition genSetup session thread
        (session.move thread (.running (next (session.state.addOperation operator operands plc).1))
          (session.state.addOperation operator operands plc).2
          [.added thread operator operands plc (session.state.addOperation operator operands plc).1])
  | generateAdd {plc operator operands opPlc generation next}
      (calling : session.threads thread =
        .generating plc (.addOperation operator operands opPlc generation) next) :
      Transition genSetup session thread
        (session.move thread
          (.generating plc (generation (session.state.addOperation operator operands opPlc).1) next)
          (session.state.addOperation operator operands opPlc).2
          [.added thread operator operands opPlc (session.state.addOperation operator operands opPlc).1])
  | found {plc next arc} (calling : session.threads thread = .running (.setup plc next))
      (present : session.state.replicatedKeys plc = some arc) :
      Transition genSetup session thread
        (session.move thread (.running (next (.ok arc))) session.state [.found thread plc arc])
  | miss {plc next} (calling : session.threads thread = .running (.setup plc next))
      (vacant : session.state.replicatedKeys plc = none) :
      Transition genSetup session thread
        (session.move thread (.generating plc (genSetup plc) next) session.state [])
  | generateFail {plc error next}
      (failed : session.threads thread = .generating plc (.fail error) next) :
      Transition genSetup session thread
        (session.move thread (.running (next (.error error))) session.state
          [.failed thread plc error])
  | raced {plc newSetup next arc}
      (generated : session.threads thread = .generating plc (.pure newSetup) next)
      (present : session.state.replicatedKeys plc = some arc) :
      Transition genSetup session thread
        (session.move thread (.running (next (.ok arc))) session.state [.raced thread plc arc])
  | insert {plc newSetup next}
      (generated : session.threads thread = .generating plc (.pure newSetup) next)
      (vacant : session.state.replicatedKeys plc = none) :
      Transition genSetup session thread
        (session.move thread (.running (next (.ok ⟨session.state.nextArc, newSetup⟩)))
          { session.state with
            replicatedKeys := Function.update session.state.replicatedKeys plc
              (some ⟨session.state.nextArc, newSetup⟩)
            nextArc := session.state.nextArc + 1 }
          [.inserted thread plc ⟨session.state.nextArc, newSetup⟩])

theorem threadStep_transition {genSetup : ReplicatedPlacement → Emission Setup}
    {session next : Session Setup α} {thread : Nat}
    (stepped : threadStep genSetup session thread = some next) :
    Transition genSetup session thread next := by
  unfold threadStep at stepped
  split at stepped
  · cases stepped; exact .finish ‹_›
  · cases stepped; exact .abort ‹_›
  · cases stepped; exact .add ‹_›
  · split at stepped
    · cases stepped; exact .found ‹_› ‹_›
    · cases stepped; exact .miss ‹_› ‹_›
  · split at stepped
    · cases stepped; exact .raced ‹_› ‹_›
    · cases stepped
      rw [SymbolicSessionState.insertSetup_of_vacant _ ‹_›]
      exact .insert ‹_› ‹_›
  · cases stepped; exact .generateFail ‹_›
  · cases stepped; exact .generateAdd ‹_›
  · cases stepped

end Model

section Invariant

variable {Setup α : Type} {genSetup : ReplicatedPlacement → Emission Setup}
  {session next : Session Setup α} {thread : Nat}

theorem Transition.stepped (transition : Transition genSetup session thread next) :
    threadStep genSetup session thread = some next := by
  cases transition <;> simp [threadStep, SymbolicSessionState.insertSetup_of_vacant, *]

theorem Transition.history_append (transition : Transition genSetup session thread next) :
    ∃ events, next.history = session.history ++ events := by
  cases transition <;> exact ⟨_, rfl⟩

/-- The ops vector only grows, at its end. -/
theorem Transition.ops_extended (transition : Transition genSetup session thread next) :
    session.state.ops <+: next.state.ops := by
  cases transition <;> simp [List.prefix_refl]

theorem Transition.threads_other (transition : Transition genSetup session thread next)
    {other : Nat} (distinct : other ≠ thread) : next.threads other = session.threads other := by
  cases transition <;> simp [Function.update_noteq distinct]

/-- An entry of the cache stays what it is. -/
theorem Transition.keys_mono (transition : Transition genSetup session thread next)
    {plc : ReplicatedPlacement} {arc : Arc Setup} (present : session.state.replicatedKeys plc = some arc) :
    next.state.replicatedKeys plc = some arc := by
  cases transition
  case insert plc' _ _ _ vacant =>
    have other : plc ≠ plc' := by rintro rfl; simp [present] at vacant
    simpa [Function.update_noteq other] using present
  all_goals simpa using present

/-- A new entry is the output of the inserting thread's `gen_setup`, put at a
vacant placement, and the step records the insert. -/
theorem Transition.keys_cases (transition : Transition genSetup session thread next)
    {plc : ReplicatedPlacement} {arc : Arc Setup} (present : next.state.replicatedKeys plc = some arc) :
    session.state.replicatedKeys plc = some arc ∨
      session.state.replicatedKeys plc = none ∧
        ∃ rest, session.threads thread = .generating plc (.pure arc.value) rest ∧
          next.history = session.history ++ [.inserted thread plc arc] := by
  cases transition
  case insert plc' newSetup rest generated vacant =>
    by_cases same : plc = plc'
    · subst same
      simp only [Session.move_state, Function.update_same, Option.some.injEq] at present
      subst present
      exact .inr ⟨vacant, rest, generated, rfl⟩
    · exact .inl (by simpa [Function.update_noteq same] using present)
  all_goals exact .inl (by simpa using present)

/-- Only the insert of a `gen_setup` output at a vacant placement changes the
cache. -/
theorem Transition.keys_changed (transition : Transition genSetup session thread next)
    (changed : next.state.replicatedKeys ≠ session.state.replicatedKeys) :
    ∃ plc newSetup rest, session.threads thread = .generating plc (.pure newSetup) rest ∧
      session.state.replicatedKeys plc = none ∧
      next.state.replicatedKeys = Function.update session.state.replicatedKeys plc
        (some ⟨session.state.nextArc, newSetup⟩) := by
  cases transition
  case insert plc newSetup rest generated vacant => exact ⟨plc, newSetup, rest, generated, vacant, rfl⟩
  all_goals simp at changed

/-- Whether an `add_operation` call's handle carries the call's placement. -/
def SessionEvent.Placed {Setup : Type} : SessionEvent Setup → Prop
  | .added _ _ _ plc handle => handle.plc = plc
  | _ => True

/-- What holds of every reachable session. -/
structure SessionInvariant (genSetup : ReplicatedPlacement → Emission Setup)
    (session : Session Setup α) : Prop where
  /-- The ops vector is what the `add_operation` calls appended, in lock order. -/
  emitted : session.history.filterMap SessionEvent.emitted = session.state.ops
  /-- Each operation is named after its position. -/
  named : session.state.ops.map Operation.name = (List.range session.state.ops.length).map opName
  /-- Each `add_operation` call's handle carries the call's placement. -/
  placed : ∀ event ∈ session.history, event.Placed
  /-- Every `Ok` a `setup` call returned is the current entry of its placement. -/
  returned : ∀ event ∈ session.history, event.ReturnsCurrent session.state.replicatedKeys
  /-- An entry is the one the first insert for its placement put there. -/
  firstInsert : ∀ (plc : ReplicatedPlacement) (arc : Arc Setup),
    session.state.replicatedKeys plc = some arc →
    ∃ (position : Nat) (thread : Nat), session.history[position]? = some (.inserted thread plc arc) ∧
      ∀ earlier < position, ∀ event : SessionEvent Setup,
        session.history[earlier]? = some event → event.insertFor ≠ some plc
  /-- No insert ran for a placement without an entry. -/
  vacant : ∀ plc : ReplicatedPlacement, session.state.replicatedKeys plc = none →
    ∀ event ∈ session.history, event.insertFor ≠ some plc
  /-- An entry is an output of `gen_setup` for its placement. -/
  generated : ∀ (plc : ReplicatedPlacement) (arc : Arc Setup),
    session.state.replicatedKeys plc = some arc → (genSetup plc).Yields arc.value
  /-- A `gen_setup` under way can only end with an output of `gen_setup` for its
  placement. -/
  generating : ∀ (thread : Nat) (plc : ReplicatedPlacement) (generation : Emission Setup)
    (next : Except Error (Arc Setup) → Lowering Setup α),
    session.threads thread = .generating plc generation next →
    ∀ value, generation.Yields value → (genSetup plc).Yields value

theorem SessionInvariant.start (programs : Nat → Lowering Setup α) :
    SessionInvariant genSetup (Session.start programs) where
  emitted := rfl
  named := rfl
  placed := by simp [Session.start]
  returned := by simp [Session.start]
  firstInsert := by simp [Session.start, SymbolicSessionState.default]
  vacant := by simp [Session.start]
  generated := by simp [Session.start, SymbolicSessionState.default]
  generating := by simp [Session.start]

theorem Transition.emitted (transition : Transition genSetup session thread next)
    (emitted : session.history.filterMap SessionEvent.emitted = session.state.ops) :
    next.history.filterMap SessionEvent.emitted = next.state.ops := by
  cases transition <;> simp [List.filterMap_append, SessionEvent.emitted, emitted]

theorem Transition.named (transition : Transition genSetup session thread next)
    (named : session.state.ops.map Operation.name = (List.range session.state.ops.length).map opName) :
    next.state.ops.map Operation.name = (List.range next.state.ops.length).map opName := by
  cases transition <;> simp [List.range_succ, named]

/-- What one step appends to the history: events whose handle carries the
call's placement, whose setup is the entry the cache now holds, and whose
insert leaves an entry. -/
theorem Transition.new_events (transition : Transition genSetup session thread next) :
    ∃ events, next.history = session.history ++ events ∧ ∀ event ∈ events,
      event.Placed ∧ event.ReturnsCurrent next.state.replicatedKeys ∧
        ∀ plc, event.insertFor = some plc → next.state.replicatedKeys plc ≠ none := by
  cases transition <;> refine ⟨_, rfl, ?_⟩ <;>
    simp only [List.not_mem_nil, List.mem_singleton, forall_eq, SessionEvent.Placed,
      SessionEvent.ReturnsCurrent, SessionEvent.insertFor, Session.move_state,
      SymbolicSessionState.addOperation_handle, SymbolicSessionState.addOperation_replicatedKeys,
      Function.update_same, Option.some.injEq, forall_eq', reduceCtorEq, ne_eq, not_false_eq_true,
      IsEmpty.forall_iff, implies_true, and_self, *]

theorem Transition.placed (transition : Transition genSetup session thread next)
    (placed : ∀ event ∈ session.history, event.Placed) : ∀ event ∈ next.history, event.Placed := by
  obtain ⟨events, history, new⟩ := transition.new_events
  rw [history, List.forall_mem_append]
  exact ⟨placed, fun event mem => (new event mem).1⟩

theorem Transition.returned (transition : Transition genSetup session thread next)
    (returned : ∀ event ∈ session.history, event.ReturnsCurrent session.state.replicatedKeys) :
    ∀ event ∈ next.history, event.ReturnsCurrent next.state.replicatedKeys := by
  obtain ⟨events, history, new⟩ := transition.new_events
  rw [history, List.forall_mem_append]
  exact ⟨fun event mem => (returned event mem).mono transition.keys_mono, fun event mem => (new event mem).2.1⟩

theorem Transition.firstInsert (transition : Transition genSetup session thread next)
    (invariant : SessionInvariant genSetup session) (plc : ReplicatedPlacement) (arc : Arc Setup)
    (present : next.state.replicatedKeys plc = some arc) :
    ∃ (position : Nat) (thread : Nat), next.history[position]? = some (.inserted thread plc arc) ∧
      ∀ earlier < position, ∀ event : SessionEvent Setup,
        next.history[earlier]? = some event → event.insertFor ≠ some plc := by
  obtain ⟨events, history⟩ := transition.history_append
  rcases transition.keys_cases present with old | ⟨vacant, _, _, inserted⟩
  · obtain ⟨position, thread', found, first⟩ := invariant.firstInsert plc arc old
    have within : position < session.history.length := (List.getElem?_eq_some_iff.1 found).1
    refine ⟨position, thread', by rw [history, List.getElem?_append_left within, found], ?_⟩
    intro earlier before event atEarlier
    rw [history, List.getElem?_append_left (by omega)] at atEarlier
    exact first earlier before event atEarlier
  · refine ⟨session.history.length, thread, by simp [inserted], ?_⟩
    intro earlier before event atEarlier
    rw [inserted, List.getElem?_append_left before] at atEarlier
    exact invariant.vacant plc vacant event (List.getElem?_mem atEarlier)

theorem Transition.vacant (transition : Transition genSetup session thread next)
    (invariant : SessionInvariant genSetup session) (plc : ReplicatedPlacement)
    (vacant : next.state.replicatedKeys plc = none) :
    ∀ event ∈ next.history, event.insertFor ≠ some plc := by
  have wasVacant : session.state.replicatedKeys plc = none := by
    cases present : session.state.replicatedKeys plc with
    | none => rfl
    | some arc => simp [transition.keys_mono present] at vacant
  obtain ⟨events, history, new⟩ := transition.new_events
  rw [history, List.forall_mem_append]
  exact ⟨invariant.vacant plc wasVacant, fun event mem inserting => (new event mem).2.2 plc inserting vacant⟩

theorem Transition.generating (transition : Transition genSetup session thread next)
    (invariant : SessionInvariant genSetup session) (thread' : Nat) (plc : ReplicatedPlacement)
    (generation : Emission Setup) (rest : Except Error (Arc Setup) → Lowering Setup α)
    (stage : next.threads thread' = .generating plc generation rest) (value : Setup)
    (yields : generation.Yields value) : (genSetup plc).Yields value := by
  by_cases other : thread' = thread
  · subst other
    -- only a miss and a step of `gen_setup` leave the thread generating
    cases transition <;> simp at stage <;> obtain ⟨rfl, rfl, rfl⟩ := stage
    · exact invariant.generating _ _ _ _ ‹_› _ (.addOperation _ yields)
    · exact yields
  · exact invariant.generating thread' plc generation rest (transition.threads_other other ▸ stage) value
      yields

theorem SessionInvariant.transition (invariant : SessionInvariant genSetup session)
    (transition : Transition genSetup session thread next) : SessionInvariant genSetup next where
  emitted := transition.emitted invariant.emitted
  named := transition.named invariant.named
  placed := transition.placed invariant.placed
  returned := transition.returned invariant.returned
  firstInsert := transition.firstInsert invariant
  vacant := transition.vacant invariant
  generated plc arc present := by
    rcases transition.keys_cases present with old | ⟨-, rest, generating, -⟩
    · exact invariant.generated plc arc old
    · exact invariant.generating thread plc _ rest generating _ .pure
  generating := transition.generating invariant

theorem Reachable.invariant {programs : Nat → Lowering Setup α}
    (reachable : Reachable genSetup programs session) : SessionInvariant genSetup session := by
  induction reachable with
  | start => exact .start programs
  | step _ _ stepped ih => exact ih.transition (threadStep_transition stepped)

end Invariant

section Results

variable {Setup α : Type} {genSetup : ReplicatedPlacement → Emission Setup}
  {session : Session Setup α}

theorem SessionInvariant.name_eq (invariant : SessionInvariant genSetup session) {index : Nat}
    {operation : Operation} (found : session.state.ops[index]? = some operation) :
    operation.name = opName index := by
  have names := congrArg (·[index]?) invariant.named
  simpa [found, List.getElem?_range (List.getElem?_eq_some_iff.1 found).1] using names

theorem SessionInvariant.names_nodup (invariant : SessionInvariant genSetup session) :
    (session.state.ops.map Operation.name).Nodup := by
  rw [invariant.named]
  exact List.Nodup.map opName_injective (List.nodup_range _)

/-- An `add_operation` call's handle names the operation the call appended, at
the position the name gives, and carries the call's placement. -/
theorem SessionInvariant.added_handle (invariant : SessionInvariant genSetup session)
    {thread : Nat} {operator : Operator} {operands : List String} {plc : Placement}
    {handle : SymbolicHandle Placement}
    (called : SessionEvent.added thread operator operands plc handle ∈ session.history) :
    ∃ index, handle = ⟨opName index, plc⟩ ∧
      session.state.ops[index]? = some ⟨opName index, operator, operands, plc⟩ := by
  have appended : (⟨handle.op, operator, operands, plc⟩ : Operation) ∈ session.state.ops := by
    rw [← invariant.emitted]
    exact List.mem_filterMap.2 ⟨_, called, rfl⟩
  obtain ⟨index, found⟩ := List.mem_iff_getElem?.1 appended
  have named : handle.op = opName index := invariant.name_eq found
  have placed : handle.plc = plc := invariant.placed _ called
  refine ⟨index, ?_, named ▸ found⟩
  cases handle
  simp_all

/-- The replicated-setup cache under any interleaving of `setup` and
`add_operation` calls. An entry is never replaced or removed. Every `Ok` a
`setup` call returned is the current entry of its placement, so all callers for
a placement get the identical `Arc`; that entry is the one the first insert for
the placement put there, and an output of `gen_setup` for that placement. Only
such an insert changes the cache: a call whose `gen_setup` fails changes
nothing. -/
theorem setup_returns_first_inserted_entry (genSetup : ReplicatedPlacement → Emission Setup)
    (programs : Nat → Lowering Setup α) :
    (∀ (session next : Session Setup α) (thread : Nat) (plc : ReplicatedPlacement) (arc : Arc Setup),
      threadStep genSetup session thread = some next →
      session.state.replicatedKeys plc = some arc → next.state.replicatedKeys plc = some arc) ∧
    (∀ session : Session Setup α, Reachable genSetup programs session →
      (∀ event ∈ session.history, event.ReturnsCurrent session.state.replicatedKeys) ∧
      ∀ (plc : ReplicatedPlacement) (arc : Arc Setup), session.state.replicatedKeys plc = some arc →
        (∃ (position : Nat) (thread : Nat), session.history[position]? = some (.inserted thread plc arc) ∧
          ∀ earlier < position, ∀ event : SessionEvent Setup,
            session.history[earlier]? = some event → event.insertFor ≠ some plc) ∧
        (genSetup plc).Yields arc.value) ∧
    ∀ (session next : Session Setup α) (thread : Nat), threadStep genSetup session thread = some next →
      next.state.replicatedKeys ≠ session.state.replicatedKeys →
      ∃ plc newSetup rest, session.threads thread = .generating plc (.pure newSetup) rest ∧
        session.state.replicatedKeys plc = none ∧
        next.state.replicatedKeys = Function.update session.state.replicatedKeys plc
          (some ⟨session.state.nextArc, newSetup⟩) :=
  ⟨fun _ _ _ _ _ stepped present => (threadStep_transition stepped).keys_mono present,
    fun _ reachable => ⟨reachable.invariant.returned, fun plc arc present =>
      ⟨reachable.invariant.firstInsert plc arc present, reachable.invariant.generated plc arc present⟩⟩,
    fun _ _ _ stepped changed => (threadStep_transition stepped).keys_changed changed⟩

/-- A replicated placement of three parties. -/
def trio : ReplicatedPlacement := ⟨("alice", "bob", "carole")⟩

/-- Two threads, each asking for the setup of `trio` once. -/
def twoSetupCalls : Nat → Lowering Unit Unit := fun _ => .setup trio fun _ => .pure ()

/-- Both threads miss the cache and generate; thread 0 inserts, thread 1 loses
the race and gets thread 0's entry. -/
theorem setup_returns_first_inserted_entry_of_race :
    ∃ session : Session Unit Unit, Reachable (fun _ => .pure ()) twoSetupCalls session ∧
      SessionEvent.raced 1 trio ⟨0, ()⟩ ∈ session.history ∧
      session.state.replicatedKeys trio = some ⟨0, ()⟩ := by
  have reachable := Reachable.step 1 (Reachable.step 0 (Reachable.step 1 (Reachable.step 0
    (Reachable.start : Reachable (fun _ => .pure ()) twoSetupCalls _) rfl) rfl) rfl) rfl
  refine ⟨_, reachable, ?raced,
    ((setup_returns_first_inserted_entry (fun _ => .pure ()) twoSetupCalls).2.1 _ reachable).1 _ ?raced⟩
  simp [Session.start, SymbolicSessionState.default, SymbolicSessionState.insertSetup]

end Results

section Simulation

variable {Setup α : Type} (genSetup : ReplicatedPlacement → Emission Setup) (thread : Nat)

/-- A `gen_setup` run with no other thread, followed by the insert, is a run
of one thread in the generating stage of `setup`. -/
theorem Emission.run_steps (plc : ReplicatedPlacement) (next : Except Error (Arc Setup) → Lowering Setup α)
    (generation : Emission Setup) (session : Session Setup α)
    (generating : session.threads thread = .generating plc generation next) :
    ∃ after, Steps genSetup thread session after ∧
      after.state = (insertGenerated plc (generation.run session.state)).2 ∧
      after.threads thread = .running (next (insertGenerated plc (generation.run session.state)).1) := by
  induction generation generalizing session with
  | pure newSetup =>
    cases present : session.state.replicatedKeys plc with
    | some arc =>
      refine ⟨_, .single (Transition.raced generating present).stepped, ?_, ?_⟩ <;>
        simp [Emission.run, insertGenerated, SymbolicSessionState.insertSetup_of_present _ present]
    | none =>
      refine ⟨_, .single (Transition.insert generating present).stepped, ?_, ?_⟩ <;>
        simp [Emission.run, insertGenerated, SymbolicSessionState.insertSetup_of_vacant _ present]
  | fail error =>
    exact ⟨_, .single (Transition.generateFail generating).stepped, rfl, by simp [Emission.run, insertGenerated]⟩
  | addOperation operator operands opPlc generation ih =>
    let added := session.state.addOperation operator operands opPlc
    obtain ⟨after, steps, state, stage⟩ := ih added.1
      (session.move thread (.generating plc (generation added.1) next) added.2
        [.added thread operator operands opPlc added.1]) (by simp)
    exact ⟨after, .head (Transition.generateAdd generating).stepped steps, state, stage⟩

/-- A kernel program run with no other thread is a run of one thread. -/
theorem Lowering.run_steps (program : Lowering Setup α) (session : Session Setup α)
    (running : session.threads thread = .running program) :
    ∃ after, Steps genSetup thread session after ∧
      after.state = (program.run genSetup session.state).2 ∧
      after.threads thread = .finished (program.run genSetup session.state).1 := by
  induction program generalizing session with
  | pure value => exact ⟨_, .single (Transition.finish running).stepped, rfl, by simp [Lowering.run]⟩
  | fail error => exact ⟨_, .single (Transition.abort running).stepped, rfl, by simp [Lowering.run]⟩
  | addOperation operator operands plc next ih =>
    let added := session.state.addOperation operator operands plc
    obtain ⟨after, steps, state, stage⟩ := ih added.1
      (session.move thread (.running (next added.1)) added.2
        [.added thread operator operands plc added.1]) (by simp)
    exact ⟨after, .head (Transition.add running).stepped steps, state, stage⟩
  | setup plc next ih =>
    cases present : session.state.replicatedKeys plc with
    | some arc =>
      obtain ⟨after, steps, state, stage⟩ := ih (.ok arc)
        (session.move thread (.running (next (.ok arc))) session.state [.found thread plc arc]) (by simp)
      refine ⟨after, .head (Transition.found running present).stepped steps, ?_, ?_⟩ <;>
        simp [Lowering.run, SymbolicSessionState.setup, present, state, stage]
    | none =>
      obtain ⟨middle, generated, state, stage⟩ := Emission.run_steps genSetup thread plc next
        (genSetup plc) (session.move thread (.generating plc (genSetup plc) next) session.state []) (by simp)
      obtain ⟨after, steps, state', stage'⟩ := ih _ middle stage
      refine ⟨after, .head (Transition.miss running present).stepped (generated.trans steps), ?_, ?_⟩ <;>
        simp [Lowering.run, SymbolicSessionState.setup, present, state, state', stage']

/-- The session a program run alone from the default state ends in is reachable. -/
theorem Lowering.run_reachable (program : Lowering Setup α) :
    ∃ session, Reachable genSetup (fun _ => program) session ∧
      session.state = (program.run genSetup .default).2 ∧
      session.threads thread = .finished (program.run genSetup .default).1 := by
  obtain ⟨after, steps, state, stage⟩ :=
    program.run_steps genSetup thread (Session.start fun _ => program) rfl
  exact ⟨after, Reachable.start.steps steps, state, stage⟩

end Simulation

end Moose.Execution

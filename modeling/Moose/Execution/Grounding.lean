import Moose.Execution.Concurrent

/-!
# Every handle names an emitted operation

When every kernel program and every `gen_setup` only names operations it knows
of (`Lowering.Scoped`, `Emission.Scoped`), every op name a thread may still use
and every handle in a cached setup names an operation already in the ops
vector. So an operation `add_operation` appends only takes inputs from
operations before it, and the ops vector stays well formed in every
interleaving.
-/

namespace Moose.Execution

section Grounding

variable {Setup α : Type} [HoldsHandles Setup] [HoldsHandles α]

/-- Every op name a thread may still use is in `names`: the names its program
knows, and in `setup`, those its `gen_setup` knows and those the rest of its
program knew before the call. -/
def Thread.Grounded (names : List String) : Thread Setup α → Prop
  | .running program => ∃ known : List String, known ⊆ names ∧ program.Scoped known
  | .generating _ generation next =>
    (∃ known : List String, known ⊆ names ∧ generation.Scoped known) ∧
      ∃ known : List String, known ⊆ names ∧ ∀ answer, (next answer).Scoped (setupNames answer ++ known)
  | .finished _ => True

theorem Thread.Grounded.mono {names names' : List String} {stage : Thread Setup α}
    (grounded : stage.Grounded names) (more : names ⊆ names') : stage.Grounded names' := by
  cases stage with
  | running =>
    obtain ⟨known, sub, inScope⟩ := grounded
    exact ⟨known, List.Subset.trans sub more, inScope⟩
  | generating =>
    obtain ⟨⟨known, sub, inScope⟩, known', sub', rest⟩ := grounded
    exact ⟨⟨known, List.Subset.trans sub more, inScope⟩, known', List.Subset.trans sub' more, rest⟩
  | finished => trivial

/-- Every handle a thread or the cache may still use names an operation of the
ops vector, and that vector is well formed. -/
structure Grounded (session : Session Setup α) : Prop where
  wellFormed : Computation.WellFormed ⟨session.state.ops⟩
  keys : ∀ plc arc, session.state.replicatedKeys plc = some arc →
    handles arc.value ⊆ session.state.ops.map Operation.name
  threads : ∀ thread, (session.threads thread).Grounded (session.state.ops.map Operation.name)

variable {genSetup : ReplicatedPlacement → Emission Setup} {session next : Session Setup α}
  {thread : Nat}

theorem Grounded.start {programs : Nat → Lowering Setup α}
    (programsScoped : ∀ thread, (programs thread).Scoped []) : Grounded (Session.start programs) where
  wellFormed := by simp [Session.start, SymbolicSessionState.default, Computation.WellFormed]
  keys := by simp [Session.start, SymbolicSessionState.default]
  threads thread := ⟨[], List.Subset.refl _, programsScoped thread⟩

/-- A step keeps the session grounded when the state it leaves is, and the
stage it gives the thread is. -/
theorem Grounded.move (grounded : Grounded session) {stage : Thread Setup α}
    {state : SymbolicSessionState Setup} {events : List (SessionEvent Setup)}
    (grown : session.state.ops <+: state.ops) (wellFormed : Computation.WellFormed ⟨state.ops⟩)
    (keys : ∀ plc arc, state.replicatedKeys plc = some arc → handles arc.value ⊆ state.ops.map Operation.name)
    (staged : stage.Grounded (state.ops.map Operation.name)) :
    Grounded (session.move thread stage state events) where
  wellFormed := wellFormed
  keys := keys
  threads other := by
    by_cases same : other = thread
    · subst same; simpa using staged
    · simpa [Function.update_noteq same] using (grounded.threads other).mono ((grown.map _).subset)

theorem Grounded.transition (genScoped : ∀ plc, (genSetup plc).Scoped [])
    (grounded : Grounded session) (transition : Transition genSetup session thread next) :
    Grounded next := by
  have stage := grounded.threads thread
  have names := fun name : String => List.subset_append_left (session.state.ops.map Operation.name) [name]
  cases transition with
  | finish returned => exact grounded.move (List.prefix_refl _) grounded.wellFormed grounded.keys trivial
  | abort failed => exact grounded.move (List.prefix_refl _) grounded.wellFormed grounded.keys trivial
  | add calling =>
    rw [calling] at stage
    obtain ⟨known, sub, inScope⟩ := stage
    cases inScope with | addOperation operandsKnown continues =>
    refine grounded.move (by simp) (grounded.wellFormed.append (List.Subset.trans operandsKnown sub))
      (fun plc arc present => by simpa using List.Subset.trans (grounded.keys plc arc present) (names _))
      ⟨_, ?_, continues _⟩
    simpa using List.Subset.trans sub (names _)
  | generateAdd calling =>
    rw [calling] at stage
    obtain ⟨⟨known, sub, inScope⟩, known', sub', rest⟩ := stage
    cases inScope with | addOperation operandsKnown continues =>
    refine grounded.move (by simp) (grounded.wellFormed.append (List.Subset.trans operandsKnown sub))
      (fun plc arc present => by simpa using List.Subset.trans (grounded.keys plc arc present) (names _))
      ⟨⟨_, ?_, continues _⟩, known', by simpa using List.Subset.trans sub' (names _), rest⟩
    simpa using List.Subset.trans sub (names _)
  | found calling present =>
    rw [calling] at stage
    obtain ⟨known, sub, inScope⟩ := stage
    cases inScope with | setup continues =>
    exact grounded.move (List.prefix_refl _) grounded.wellFormed grounded.keys
      ⟨_, List.append_subset.2 ⟨grounded.keys _ _ present, sub⟩, continues (.ok _)⟩
  | miss calling vacant =>
    rw [calling] at stage
    obtain ⟨known, sub, inScope⟩ := stage
    cases inScope with | setup continues =>
    exact grounded.move (List.prefix_refl _) grounded.wellFormed grounded.keys
      ⟨⟨[], List.nil_subset _, genScoped _⟩, known, sub, continues⟩
  | generateFail failed =>
    rw [failed] at stage
    obtain ⟨-, known, sub, rest⟩ := stage
    exact grounded.move (List.prefix_refl _) grounded.wellFormed grounded.keys ⟨_, sub, rest (.error _)⟩
  | raced generated present =>
    rw [generated] at stage
    obtain ⟨-, known, sub, rest⟩ := stage
    exact grounded.move (List.prefix_refl _) grounded.wellFormed grounded.keys
      ⟨_, List.append_subset.2 ⟨grounded.keys _ _ present, sub⟩, rest (.ok _)⟩
  | @insert target newSetup rest generated vacant =>
    rw [generated] at stage
    obtain ⟨⟨knownGen, subGen, inScope⟩, known, sub, continues⟩ := stage
    cases inScope with | pure outputKnown =>
    have outputGrounded := List.Subset.trans outputKnown subGen
    refine grounded.move (List.prefix_refl _) grounded.wellFormed ?_
      ⟨_, List.append_subset.2 ⟨outputGrounded, sub⟩, continues (.ok ⟨session.state.nextArc, newSetup⟩)⟩
    intro plc arc present
    by_cases same : plc = target
    · subst same
      simp only [Function.update_same, Option.some.injEq] at present
      subst present
      exact outputGrounded
    · exact grounded.keys plc arc (by simpa [Function.update_noteq same] using present)

/-- In every interleaving of scoped programs with a scoped `gen_setup`, the ops
vector is well formed. -/
theorem Reachable.wellFormed {programs : Nat → Lowering Setup α}
    (programsScoped : ∀ thread, (programs thread).Scoped []) (genScoped : ∀ plc, (genSetup plc).Scoped [])
    (reachable : Reachable genSetup programs session) : Computation.WellFormed ⟨session.state.ops⟩ := by
  suffices Grounded session from this.wellFormed
  induction reachable with
  | start => exact .start programsScoped
  | step _ _ stepped ih => exact ih.transition genScoped (threadStep_transition stepped)

end Grounding

end Moose.Execution

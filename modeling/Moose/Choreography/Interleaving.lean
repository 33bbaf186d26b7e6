import Moose.Choreography.Grpc

/-!
# Concurrent launches, retrieves and output tasks

The handlers of `GrpcChoreography` run concurrently with each other and with
the output tasks that `launch_computation` spawns. This module runs them as
processes over the shared `Stores`. The atomic steps are the ones that touch
shared state: the `entry` check-and-insert of a launch, the lookup of a
retrieve, its read of the filled cell, and the lookup and the `set` of an
output task. What a process does between two such steps touches only its own
data, so it is folded into the step before.

The `history` is proof-only: it records the inserts, the lookups of retrieves
and the cell writes in the order they happen.

Besides the safety of every interleaving, the invariant shows what a launch
that fails after its insert leaves behind: a session whose cell no step ever
fills, so that every retrieve of it waits forever. A launch that succeeds and
whose outputs all resolve is the opposite case: its output task can always
fill the cell by its own steps, and then every retrieve waiting on it returns.
-/

namespace Moose.Choreography

/-- Where an in-flight `launch_computation` stands. -/
inductive LaunchPc (Sid : Type) where
  | start
  | inserted (sessionId : Sid)
  | returned (response : Except Status Unit)

/-- Where an in-flight `retrieve_results` stands. -/
inductive RetrievePc where
  | start
  | awaiting (cell : CellId)
  | returned (response : Except Status Bytes)

/-- The program counter a retrieve moves to after its lookup. -/
def RetrievePc.ofEntry : RetrieveEntry → RetrievePc
  | .returned response => .returned response
  | .awaiting cell => .awaiting cell

@[simp] theorem RetrievePc.ofEntry_returned_iff {entry : RetrieveEntry}
    {response : Except Status Bytes} :
    RetrievePc.ofEntry entry = .returned response ↔ entry = .returned response := by
  cases entry <;> simp [RetrievePc.ofEntry]

@[simp] theorem RetrievePc.ofEntry_awaiting_iff {entry : RetrieveEntry} {cell : CellId} :
    RetrievePc.ofEntry entry = .awaiting cell ↔ entry = .awaiting cell := by
  cases entry <;> simp [RetrievePc.ofEntry]

@[simp] theorem RetrievePc.ofEntry_ne_start (entry : RetrieveEntry) :
    RetrievePc.ofEntry entry ≠ .start := by
  cases entry <;> simp [RetrievePc.ofEntry]

/-- Where a spawned output task stands: awaiting its outputs, about to look up
its session's cell, about to set it, done, or stopped by a panic (an output
that never resolves, or a session that disappeared). -/
inductive TaskPc (Value : Type) where
  | collecting
  | lookingUp (results : HashMap String Value)
  | setting (cell : CellId) (results : HashMap String Value)
  | finished
  | panicked

/-- The output task spawned by a launch: the session it reports to and the
outputs it awaits. -/
structure OutputTask (Sid Value : Type) where
  sessionId : Sid
  outputs : HashMap String (Option Value)
  pc : TaskPc Value

/-- The events the history records. -/
inductive Event (Sid : Type) where
  | inserted (launch : Nat) (sessionId : Sid)
  | lookedUp (retrieve : Nat) (entry : RetrieveEntry)
  | set (task : Nat) (cell : CellId)

/-- The whole server: the shared stores, every handler in flight, and the
output task of each launch, indexed by the launch that spawned it. -/
structure Server (Sid Value : Type) where
  stores : Stores Sid Value
  launches : Nat → LaunchPc Sid
  retrieves : Nat → RetrievePc
  tasks : Nat → Option (OutputTask Sid Value)
  history : List (Event Sid)

/-- A server before any request: `GrpcChoreography::new`. -/
def Server.initial {Sid Value : Type} : Server Sid Value where
  stores := Stores.empty
  launches _ := .start
  retrieves _ := .start
  tasks _ := none
  history := []

/-- A server and the requests its clients send: the `i`-th launch and the
`i`-th retrieve, however many of them are ever served. -/
structure Deployment (Sid Computation Value : Type) where
  backend : Backend Sid Computation Value
  choreographer : Option String
  launchRequest : Nat → Request LaunchComputationRequest
  retrieveRequest : Nat → Request RetrieveResultsRequest

/-- One atomic step: of the `i`-th launch, of the `i`-th retrieve, or of the
task of the `i`-th launch (a `set` reads the clock for `elapsed_time`). -/
inductive Action where
  | launch (index : Nat)
  | retrieve (index : Nat)
  | task (index : Nat) (elapsed : Duration)

section Step

variable {Sid Computation Value : Type} [DecidableEq Sid]
variable (deployment : Deployment Sid Computation Value)

/-- The step of a launch. -/
def launchStep (server : Server Sid Value) (index : Nat) : Option (Server Sid Value) :=
  match server.launches index with
  | .start =>
      match launchEntry deployment.backend deployment.choreographer
          (deployment.launchRequest index) server.stores with
      | (.returned response, stores) =>
          some { server with stores,
                             launches := Function.update server.launches index (.returned response) }
      | (.inserted sessionId, stores) =>
          some { server with stores,
                             launches := Function.update server.launches index (.inserted sessionId),
                             history := server.history ++ [.inserted index sessionId] }
  | .inserted sessionId =>
      match launchTail deployment.backend (deployment.launchRequest index).message sessionId with
      | .error status =>
          some { server with
                   launches := Function.update server.launches index (.returned (.error status)) }
      | .ok outputs =>
          some { server with
                   launches := Function.update server.launches index (.returned (.ok ())),
                   tasks := Function.update server.tasks index (some ⟨sessionId, outputs, .collecting⟩) }
  | .returned _ => none

/-- The step of a retrieve: its lookup, then its read of the filled cell. -/
def retrieveStep (server : Server Sid Value) (index : Nat) : Option (Server Sid Value) :=
  match server.retrieves index with
  | .start =>
      let entry := retrieveEntry deployment.backend deployment.choreographer
        (deployment.retrieveRequest index) server.stores
      some { server with
               retrieves := Function.update server.retrieves index (.ofEntry entry),
               history := server.history ++ [.lookedUp index entry] }
  | .awaiting cell =>
      (retrieveAwait deployment.backend server.stores cell).map fun response =>
        { server with retrieves := Function.update server.retrieves index (.returned response) }
  | .returned _ => none

/-- The step of the output task of a launch. -/
def taskStep (server : Server Sid Value) (index : Nat) (elapsed : Duration) :
    Option (Server Sid Value) :=
  match server.tasks index with
  | none => none
  | some task =>
      let move (pc : TaskPc Value) : Server Sid Value :=
        { server with tasks := Function.update server.tasks index (some { task with pc }) }
      match task.pc with
      | .collecting =>
          some (move ((collectResults task.outputs).elim .panicked .lookingUp))
      | .lookingUp results =>
          some (move ((server.stores.resultStores task.sessionId).elim .panicked
            fun cell => .setting cell results))
      | .setting cell results =>
          some { move .finished with
                   stores := server.stores.set cell ⟨results, some elapsed⟩,
                   history := server.history ++ [.set index cell] }
      | .finished => none
      | .panicked => none

/-- One step of the server. -/
def step (server : Server Sid Value) : Action → Option (Server Sid Value)
  | .launch index => launchStep deployment server index
  | .retrieve index => retrieveStep deployment server index
  | .task index elapsed => taskStep server index elapsed

/-- The states some interleaving of steps reaches from the initial server. -/
inductive Reachable : Server Sid Value → Prop where
  | initial : Reachable Server.initial
  | step {server next : Server Sid Value} (action : Action) :
      Reachable server → step deployment server action = some next → Reachable next

/-- The session id the `i`-th launch names, when its payload decodes. -/
def Deployment.launchSessionId (index : Nat) : Option Sid :=
  deployment.backend.deserializeSessionId (deployment.launchRequest index).message.sessionId

/-- The session id the `i`-th retrieve names, when its payload decodes. -/
def Deployment.retrieveSessionId (index : Nat) : Option Sid :=
  deployment.backend.deserializeSessionId (deployment.retrieveRequest index).message.sessionId

end Step

/-! ## The invariant -/

section Invariant

variable {Sid Computation Value : Type} [DecidableEq Sid]
variable (deployment : Deployment Sid Computation Value)

/-- The launches that took the `Vacant` branch for a session id, in order. -/
def inserters (history : List (Event Sid)) (sessionId : Sid) : List Nat :=
  history.filterMap fun event =>
    match event with
    | .inserted launch inserted => if inserted = sessionId then some launch else none
    | _ => none

@[simp] theorem inserters_nil (sessionId : Sid) : inserters [] sessionId = [] := rfl

@[simp] theorem inserters_append (history more : List (Event Sid)) (sessionId : Sid) :
    inserters (history ++ more) sessionId = inserters history sessionId ++ inserters more sessionId :=
  List.filterMap_append _ _ _

@[simp] theorem inserters_inserted (launch : Nat) (inserted sessionId : Sid) :
    inserters [.inserted launch inserted] sessionId =
      if inserted = sessionId then [launch] else [] := by
  by_cases same : inserted = sessionId <;> simp [inserters, same]

theorem mem_inserters {history : List (Event Sid)} {sessionId : Sid} {launch : Nat} :
    launch ∈ inserters history sessionId ↔ Event.inserted launch sessionId ∈ history := by
  simp only [inserters, List.mem_filterMap]
  constructor
  · rintro ⟨event, member, recorded⟩
    cases event with
    | inserted launch' inserted =>
        by_cases same : inserted = sessionId
        · simp only [same, ite_true, Option.some.injEq] at recorded
          exact recorded ▸ same ▸ member
        · simp [same] at recorded
    | lookedUp => cases recorded
    | set => cases recorded
  · intro member
    exact ⟨_, member, by simp⟩

@[simp] theorem inserters_lookedUp (retrieve : Nat) (entry : RetrieveEntry) (sessionId : Sid) :
    inserters [.lookedUp retrieve entry] sessionId = [] := rfl

@[simp] theorem inserters_set (task : Nat) (cell : CellId) (sessionId : Sid) :
    inserters [.set task cell] sessionId = [] := rfl

/-- The facts every reachable state keeps. -/
structure Invariant (server : Server Sid Value) : Prop where
  /-- A session id has an entry exactly when some launch inserted it. -/
  vacant_iff : ∀ sessionId,
    server.stores.resultStores sessionId = none ↔ inserters server.history sessionId = []
  /-- At most one launch inserts a session id. -/
  inserted_once : ∀ sessionId, (inserters server.history sessionId).length ≤ 1
  inserter_named : ∀ sessionId index, index ∈ inserters server.history sessionId →
    deployment.launchSessionId index = some sessionId
  cell_allocated : ∀ sessionId cell, server.stores.resultStores sessionId = some cell →
    cell < server.stores.nextCell
  cell_owner : ∀ sessionId other cell, server.stores.resultStores sessionId = some cell →
    server.stores.resultStores other = some cell → sessionId = other
  launch_start : ∀ index, server.launches index = .start → server.tasks index = none
  launch_inserted : ∀ index sessionId, server.launches index = .inserted sessionId →
    index ∈ inserters server.history sessionId ∧ server.tasks index = none
  launch_ok : ∀ index, server.launches index = .returned (.ok ()) →
    ∃ task, server.tasks index = some task ∧ index ∈ inserters server.history task.sessionId ∧
      launchTail deployment.backend (deployment.launchRequest index).message task.sessionId =
        .ok task.outputs
  launch_error : ∀ index status, server.launches index = .returned (.error status) →
    status.code = .aborted
  task_launched : ∀ index task, server.tasks index = some task →
    server.launches index = .returned (.ok ())
  task_results : ∀ index task results, server.tasks index = some task →
    (task.pc = .lookingUp results ∨ ∃ cell, task.pc = .setting cell results) →
    collectResults task.outputs = some results
  task_cell : ∀ index task cell results, server.tasks index = some task →
    task.pc = .setting cell results → server.stores.resultStores task.sessionId = some cell
  /-- A filled cell holds what the output task of its session's launch collected. -/
  filled : ∀ sessionId cell results, server.stores.resultStores sessionId = some cell →
    server.stores.cells cell = some results →
    ∃ index task, index ∈ inserters server.history sessionId ∧ server.tasks index = some task ∧
      task.sessionId = sessionId ∧ task.pc = .finished ∧
      collectResults task.outputs = some results.outputs ∧ results.elapsedTime.isSome
  awaiting : ∀ index cell, server.retrieves index = .awaiting cell →
    ∃ sessionId, deployment.retrieveSessionId index = some sessionId ∧
      server.stores.resultStores sessionId = some cell
  retrieved : ∀ index bytes, server.retrieves index = .returned (.ok bytes) →
    ∃ sessionId cell results, deployment.retrieveSessionId index = some sessionId ∧
      server.stores.resultStores sessionId = some cell ∧ server.stores.cells cell = some results ∧
      bytes = deployment.backend.serializeResults results
  /-- A lookup answered `NotFound` exactly when no insert for its id came before it. -/
  lookups : ∀ (position index : Nat) (entry : RetrieveEntry) (sessionId : Sid),
    server.history[position]? = some (.lookedUp index entry) →
    checkChoreographer deployment.choreographer (deployment.retrieveRequest index).sender = .ok () →
    deployment.retrieveSessionId index = some sessionId →
    (entry = .returned (.error ⟨.notFound, "unknown session id"⟩) ↔
      inserters (server.history.take position) sessionId = [])
  /-- A cell is written by the task of the launch that inserted it, and stays filled. -/
  sets : ∀ (position index : Nat) (cell : CellId),
    server.history[position]? = some (.set index cell) →
    ∃ sessionId, index ∈ inserters server.history sessionId ∧
      server.stores.resultStores sessionId = some cell ∧ (server.stores.cells cell).isSome
  set_once : ∀ (position other index index' : Nat) (cell : CellId),
    server.history[position]? = some (.set index cell) →
    server.history[other]? = some (.set index' cell) → position = other
  filled_allocated : ∀ cell results, server.stores.cells cell = some results →
    cell < server.stores.nextCell

theorem Invariant.initial : Invariant deployment (Server.initial : Server Sid Value) where
  vacant_iff _ := by simp [Server.initial, Stores.empty]
  inserted_once _ := by simp [Server.initial]
  inserter_named _ _ member := by simp [Server.initial] at member
  cell_allocated _ _ stored := by cases stored
  cell_owner _ _ _ stored := by cases stored
  launch_start _ _ := rfl
  launch_inserted _ _ started := by cases started
  launch_ok _ started := by cases started
  launch_error _ _ started := by cases started
  task_launched _ _ spawned := by cases spawned
  task_results _ _ _ spawned := by cases spawned
  task_cell _ _ _ _ spawned := by cases spawned
  filled _ _ _ stored := by cases stored
  awaiting _ _ started := by cases started
  retrieved _ _ started := by cases started
  lookups _ _ _ _ recorded := by cases recorded
  sets _ _ _ recorded := by cases recorded
  set_once _ _ _ _ _ recorded := by cases recorded
  filled_allocated _ _ filled := by cases filled

/-- Everything a launch step can do: return an `Aborted` error (at its `entry`
match or after it), insert a cell for its vacant session id, or spawn its
output task. -/
theorem launchStep_cases {server next : Server Sid Value} {index : Nat}
    (stepped : launchStep deployment server index = some next) :
    ((server.launches index = .start ∨ ∃ sessionId, server.launches index = .inserted sessionId) ∧
      ∃ status : Status, status.code = .aborted ∧
        next = { server with
          launches := Function.update server.launches index (.returned (.error status)) }) ∨
    (server.launches index = .start ∧ ∃ sessionId,
      deployment.launchSessionId index = some sessionId ∧
      server.stores.resultStores sessionId = none ∧
      next = { server with
        stores := server.stores.insert sessionId,
        launches := Function.update server.launches index (.inserted sessionId),
        history := server.history ++ [.inserted index sessionId] }) ∨
    (∃ sessionId outputs, server.launches index = .inserted sessionId ∧
      launchTail deployment.backend (deployment.launchRequest index).message sessionId =
        .ok outputs ∧
      next = { server with
        launches := Function.update server.launches index (.returned (.ok ())),
        tasks := Function.update server.tasks index (some ⟨sessionId, outputs, .collecting⟩) }) := by
  unfold launchStep at stepped
  split at stepped
  · rename_i started
    split at stepped <;> rename_i entry <;> cases stepped
    · obtain ⟨rfl, status, rfl, aborted⟩ := launchEntry_returned _ _ entry
      exact .inl ⟨.inl started, status, aborted, rfl⟩
    · obtain ⟨-, named, vacant, rfl⟩ := launchEntry_inserted _ _ entry
      exact .inr (.inl ⟨started, _, named, vacant, rfl⟩)
  · rename_i sessionId inserted
    split at stepped <;> rename_i ran <;> cases stepped
    · exact .inl ⟨.inr ⟨sessionId, inserted⟩, _, launchTail_aborted _ _ _ _ ran, rfl⟩
    · exact .inr (.inr ⟨sessionId, _, inserted, ran, rfl⟩)
  · cases stepped

omit [DecidableEq Sid] in
/-- Everything a retrieve step can do: record its lookup, or read the filled
cell it awaits. -/
theorem retrieveStep_cases {server next : Server Sid Value} {index : Nat}
    (stepped : retrieveStep deployment server index = some next) :
    (server.retrieves index = .start ∧
      let entry := retrieveEntry deployment.backend deployment.choreographer
        (deployment.retrieveRequest index) server.stores
      next = { server with
        retrieves := Function.update server.retrieves index (.ofEntry entry),
        history := server.history ++ [.lookedUp index entry] }) ∨
    (∃ cell results, server.retrieves index = .awaiting cell ∧
      server.stores.cells cell = some results ∧
      next = { server with
        retrieves := Function.update server.retrieves index
          (.returned (.ok (deployment.backend.serializeResults results))) }) := by
  unfold retrieveStep at stepped
  split at stepped
  · cases stepped
    exact .inl ⟨‹_›, rfl⟩
  · rename_i cell awaiting
    cases filled : server.stores.cells cell with
    | none => simp [retrieveAwait, filled] at stepped
    | some results =>
        simp only [retrieveAwait, filled, Option.map_some', Option.some.injEq] at stepped
        exact .inr ⟨cell, results, awaiting, filled, stepped.symm⟩
  · cases stepped

omit [DecidableEq Sid] in
/-- Everything a task step can do: move its program counter without touching
shared state (a panic, the collected results, the looked-up cell), or set its
session's cell. -/
theorem taskStep_cases {server next : Server Sid Value} {index : Nat} {elapsed : Duration}
    (stepped : taskStep server index elapsed = some next) :
    ∃ task, server.tasks index = some task ∧
      ((∃ pc, (task.pc = .collecting ∨ ∃ results, task.pc = .lookingUp results) ∧
          (pc = .panicked ∨
            (∃ results, pc = .lookingUp results ∧ collectResults task.outputs = some results) ∨
            (∃ results cell, task.pc = .lookingUp results ∧ pc = .setting cell results ∧
              server.stores.resultStores task.sessionId = some cell)) ∧
          next = { server with tasks := Function.update server.tasks index (some { task with pc }) }) ∨
        ∃ cell results, task.pc = .setting cell results ∧
          next = { server with
            stores := server.stores.set cell ⟨results, some elapsed⟩,
            tasks := Function.update server.tasks index (some { task with pc := .finished }),
            history := server.history ++ [.set index cell] }) := by
  unfold taskStep at stepped
  split at stepped
  · cases stepped
  · rename_i task spawned
    refine ⟨task, spawned, ?_⟩
    split at stepped <;> rename_i moved <;> cases stepped
    · cases collected : collectResults task.outputs with
      | none => exact .inl ⟨.panicked, .inl moved, .inl rfl, rfl⟩
      | some results => exact .inl ⟨.lookingUp results, .inl moved, .inr (.inl ⟨results, rfl, rfl⟩), rfl⟩
    · rename_i results
      cases stored : server.stores.resultStores task.sessionId with
      | none => exact .inl ⟨.panicked, .inr ⟨results, moved⟩, .inl rfl, rfl⟩
      | some cell =>
          exact .inl ⟨.setting cell results, .inr ⟨results, moved⟩,
            .inr (.inr ⟨results, cell, moved, rfl, rfl⟩), rfl⟩
    · exact .inr ⟨_, _, moved, rfl⟩

omit [DecidableEq Sid] in
/-- An event of an extended history is an event of the history before, with the
same events before it, or the new one. -/
theorem getElem?_append_event {history : List (Event Sid)} {event recorded : Event Sid}
    {position : Nat} (found : (history ++ [event])[position]? = some recorded) :
    (history[position]? = some recorded ∧
        (history ++ [event]).take position = history.take position) ∨
      (position = history.length ∧ recorded = event) := by
  by_cases before : position < history.length
  · rw [List.getElem?_append_left before] at found
    exact .inl ⟨found, List.take_append_of_le_length before.le⟩
  · have last : position = history.length := by
      have := (List.getElem?_eq_some_iff.1 found).1
      simp only [List.length_append, List.length_singleton] at this
      omega
    subst last
    simp only [List.getElem?_append_right (Nat.le_refl _), Nat.sub_self,
      List.getElem?_cons_zero, Option.some.injEq] at found
    exact .inr ⟨rfl, found.symm⟩

/-- A launch returning an `Aborted` error changes only its own program
counter. -/
theorem Invariant.launch_fail {server : Server Sid Value} {index : Nat} {status : Status}
    (invariant : Invariant deployment server)
    (pending : server.launches index = .start ∨
      ∃ sessionId, server.launches index = .inserted sessionId)
    (aborted : status.code = .aborted) :
    Invariant deployment { server with
      launches := Function.update server.launches index (.returned (.error status)) } := by
  have idle : server.tasks index = none := by
    rcases pending with started | ⟨sessionId, inserted⟩
    · exact invariant.launch_start index started
    · exact (invariant.launch_inserted index sessionId inserted).2
  refine { invariant with
    launch_start := fun other started => ?_
    launch_inserted := fun other sessionId inserted => ?_
    launch_ok := fun other returned => ?_
    launch_error := fun other error returned => ?_
    task_launched := fun other task spawned => ?_ }
  · by_cases same : other = index
    · subst same; simp at started
    · exact invariant.launch_start other (by simpa [same] using started)
  · by_cases same : other = index
    · subst same; simp at inserted
    · exact invariant.launch_inserted other sessionId (by simpa [same] using inserted)
  · by_cases same : other = index
    · subst same; simp at returned
    · exact invariant.launch_ok other (by simpa [same] using returned)
  · by_cases same : other = index
    · subst same; simp at returned; exact returned ▸ aborted
    · exact invariant.launch_error other error (by simpa [same] using returned)
  · have differs : other ≠ index := fun same => by simp [same, idle] at spawned
    simpa [differs] using invariant.task_launched other task spawned

/-- A launch taking the `Vacant` branch records its insert and binds a fresh
cell; every other entry keeps its older cell. -/
theorem Invariant.launch_insert {server : Server Sid Value} {index : Nat} {sessionId : Sid}
    (invariant : Invariant deployment server)
    (started : server.launches index = .start)
    (named : deployment.launchSessionId index = some sessionId)
    (vacant : server.stores.resultStores sessionId = none) :
    Invariant deployment { server with
      stores := server.stores.insert sessionId,
      launches := Function.update server.launches index (.inserted sessionId),
      history := server.history ++ [.inserted index sessionId] } := by
  have uninserted : inserters server.history sessionId = [] :=
    (invariant.vacant_iff sessionId).1 vacant
  have older : ∀ other cell, server.stores.resultStores other = some cell →
      other ≠ sessionId ∧ cell ≠ server.stores.nextCell := fun other cell stored =>
    ⟨fun same => by simp [same, vacant] at stored,
      (invariant.cell_allocated other cell stored).ne⟩
  have idle := invariant.launch_start index started
  constructor
  case vacant_iff =>
    intro other
    by_cases same : other = sessionId
    · subst same; simp [uninserted]
    · simpa [same, Ne.symm same] using invariant.vacant_iff other
  case inserted_once =>
    intro other
    by_cases same : other = sessionId
    · subst same; simp [uninserted]
    · simpa [Ne.symm same] using invariant.inserted_once other
  case inserter_named =>
    intro other launch member
    simp only [inserters_append, inserters_inserted, List.mem_append] at member
    rcases member with old | new
    · exact invariant.inserter_named other launch old
    · by_cases same : sessionId = other
      · simp only [same, ite_true, List.mem_singleton] at new
        exact new ▸ same ▸ named
      · simp [same] at new
  case cell_allocated =>
    intro other cell stored
    by_cases same : other = sessionId
    · simp [same] at stored; simp [← stored]
    · exact Nat.lt_succ_of_lt (invariant.cell_allocated other cell (by simpa [same] using stored))
  case cell_owner =>
    intro first second cell firstStored secondStored
    by_cases firstNew : first = sessionId <;> by_cases secondNew : second = sessionId
    · rw [firstNew, secondNew]
    · simp only [Stores.insert_resultStores, firstNew, secondNew, ite_true, ite_false,
        Option.some.injEq] at firstStored secondStored
      exact absurd firstStored (older second cell secondStored).2.symm
    · simp only [Stores.insert_resultStores, firstNew, secondNew, ite_true, ite_false,
        Option.some.injEq] at firstStored secondStored
      exact absurd secondStored (older first cell firstStored).2.symm
    · exact invariant.cell_owner first second cell (by simpa [firstNew] using firstStored)
        (by simpa [secondNew] using secondStored)
  case launch_start =>
    intro other launched
    by_cases same : other = index
    · subst same; simp at launched
    · exact invariant.launch_start other (by simpa [same] using launched)
  case launch_inserted =>
    intro other inserted waiting
    by_cases same : other = index
    · subst same
      simp only [Function.update_same, LaunchPc.inserted.injEq] at waiting
      subst waiting
      exact ⟨by simp, idle⟩
    · have old := invariant.launch_inserted other inserted (by simpa [same] using waiting)
      exact ⟨by simp [old.1], old.2⟩
  case launch_ok =>
    intro other returned
    by_cases same : other = index
    · subst same; simp at returned
    · obtain ⟨task, spawned, member, ran⟩ :=
        invariant.launch_ok other (by simpa [same] using returned)
      exact ⟨task, spawned, by simp [member], ran⟩
  case launch_error =>
    intro other error returned
    by_cases same : other = index
    · subst same; simp at returned
    · exact invariant.launch_error other error (by simpa [same] using returned)
  case task_launched =>
    intro other task spawned
    have differs : other ≠ index := fun same => by simp [same, idle] at spawned
    simpa [differs] using invariant.task_launched other task spawned
  case task_results =>
    exact invariant.task_results
  case task_cell =>
    intro other task cell results spawned setting
    have stored := invariant.task_cell other task cell results spawned setting
    simpa [(older _ _ stored).1] using stored
  case filled =>
    intro other cell results stored filled
    by_cases same : other = sessionId
    · simp only [Stores.insert_resultStores, same, ite_true, Option.some.injEq] at stored
      simp [← stored] at filled
    · have stored : server.stores.resultStores other = some cell := by simpa [same] using stored
      obtain ⟨launch, task, member, rest⟩ := invariant.filled other cell results stored
        (by simpa [(older _ _ stored).2] using filled)
      exact ⟨launch, task, by simp [member], rest⟩
  case awaiting =>
    intro other cell waiting
    obtain ⟨named, retrieveNamed, stored⟩ := invariant.awaiting other cell waiting
    exact ⟨named, retrieveNamed, by simpa [(older _ _ stored).1] using stored⟩
  case retrieved =>
    intro other bytes returned
    obtain ⟨named, cell, results, retrieveNamed, stored, filled, encoded⟩ :=
      invariant.retrieved other bytes returned
    exact ⟨named, cell, results, retrieveNamed, by simpa [(older _ _ stored).1] using stored,
      by simpa [(older _ _ stored).2] using filled, encoded⟩
  case lookups =>
    intro position other entry named found accepted retrieveNamed
    rcases getElem?_append_event found with ⟨old, prefixed⟩ | ⟨-, clash⟩
    · rw [prefixed]
      exact invariant.lookups position other entry named old accepted retrieveNamed
    · cases clash
  case sets =>
    intro position other cell found
    rcases getElem?_append_event found with ⟨old, -⟩ | ⟨-, clash⟩
    · obtain ⟨named, member, stored, filled⟩ := invariant.sets position other cell old
      exact ⟨named, by simp [member], by simpa [(older _ _ stored).1] using stored,
        by simpa [(older _ _ stored).2] using filled⟩
    · cases clash
  case set_once =>
    intro position position' other other' cell found found'
    rcases getElem?_append_event found with ⟨old, -⟩ | ⟨-, clash⟩
    · rcases getElem?_append_event found' with ⟨old', -⟩ | ⟨-, clash⟩
      · exact invariant.set_once position position' other other' cell old old'
      · cases clash
    · cases clash
  case filled_allocated =>
    intro cell results filled
    by_cases fresh : cell = server.stores.nextCell
    · simp [fresh] at filled
    · exact Nat.lt_succ_of_lt (invariant.filled_allocated cell results (by simpa [fresh] using filled))

/-- A launch whose payloads decode and whose computation runs spawns its output
task and answers `Ok`. -/
theorem Invariant.launch_spawn {server : Server Sid Value} {index : Nat} {sessionId : Sid}
    {outputs : HashMap String (Option Value)} (invariant : Invariant deployment server)
    (inserted : server.launches index = .inserted sessionId)
    (ran : launchTail deployment.backend (deployment.launchRequest index).message sessionId =
      .ok outputs) :
    Invariant deployment { server with
      launches := Function.update server.launches index (.returned (.ok ())),
      tasks := Function.update server.tasks index (some ⟨sessionId, outputs, .collecting⟩) } := by
  obtain ⟨member, idle⟩ := invariant.launch_inserted index sessionId inserted
  refine { invariant with
    launch_start := fun other started => ?_
    launch_inserted := fun other named waiting => ?_
    launch_ok := fun other returned => ?_
    launch_error := fun other error returned => ?_
    task_launched := fun other task spawned => ?_
    task_results := fun other task results spawned moving => ?_
    task_cell := fun other task cell results spawned setting => ?_
    filled := fun named cell results stored filled => ?_ }
  · by_cases same : other = index
    · subst same; simp at started
    · simpa [same] using invariant.launch_start other (by simpa [same] using started)
  · by_cases same : other = index
    · subst same; simp at waiting
    · simpa [same] using invariant.launch_inserted other named (by simpa [same] using waiting)
  · by_cases same : other = index
    · subst same; exact ⟨⟨sessionId, outputs, .collecting⟩, by simp, member, ran⟩
    · obtain ⟨task, spawned, member', ran'⟩ :=
        invariant.launch_ok other (by simpa [same] using returned)
      exact ⟨task, by simpa [same] using spawned, member', ran'⟩
  · by_cases same : other = index
    · subst same; simp at returned
    · exact invariant.launch_error other error (by simpa [same] using returned)
  · by_cases same : other = index
    · subst same; simp
    · simpa [same] using invariant.task_launched other task (by simpa [same] using spawned)
  · by_cases same : other = index
    · subst same; simp only [Function.update_same, Option.some.injEq] at spawned
      subst spawned; simp at moving
    · exact invariant.task_results other task results (by simpa [same] using spawned) moving
  · by_cases same : other = index
    · subst same; simp only [Function.update_same, Option.some.injEq] at spawned
      subst spawned; simp at setting
    · exact invariant.task_cell other task cell results (by simpa [same] using spawned) setting
  · obtain ⟨launch, task, member', spawned, rest⟩ :=
      invariant.filled named cell results stored filled
    have differs : launch ≠ index := fun same => by simp [same, idle] at spawned
    exact ⟨launch, task, member', by simpa [differs] using spawned, rest⟩

/-- A retrieve's lookup records its outcome: an entry it will await, or its
answer. -/
theorem Invariant.retrieve_lookup {server : Server Sid Value} {index : Nat}
    (invariant : Invariant deployment server) (started : server.retrieves index = .start) :
    Invariant deployment { server with
      retrieves := Function.update server.retrieves index (.ofEntry (retrieveEntry
        deployment.backend deployment.choreographer (deployment.retrieveRequest index) server.stores)),
      history := server.history ++ [.lookedUp index (retrieveEntry deployment.backend
        deployment.choreographer (deployment.retrieveRequest index) server.stores)] } := by
  constructor
  all_goals simp only [inserters_append, inserters_lookedUp, List.append_nil]
  case vacant_iff =>
    exact invariant.vacant_iff
  case inserted_once =>
    exact invariant.inserted_once
  case inserter_named =>
    exact invariant.inserter_named
  case cell_allocated =>
    exact invariant.cell_allocated
  case cell_owner =>
    exact invariant.cell_owner
  case launch_start =>
    exact invariant.launch_start
  case launch_inserted =>
    exact invariant.launch_inserted
  case launch_ok =>
    exact invariant.launch_ok
  case launch_error =>
    exact invariant.launch_error
  case task_launched =>
    exact invariant.task_launched
  case task_results =>
    exact invariant.task_results
  case task_cell =>
    exact invariant.task_cell
  case filled =>
    exact invariant.filled
  case awaiting =>
    intro other cell waiting
    by_cases same : other = index
    · subst same
      simp only [Function.update_same, RetrievePc.ofEntry_awaiting_iff] at waiting
      exact retrieveEntry_awaiting _ _ waiting
    · exact invariant.awaiting other cell (by simpa [same] using waiting)
  case retrieved =>
    intro other bytes returned
    by_cases same : other = index
    · subst same
      simp only [Function.update_same, RetrievePc.ofEntry_returned_iff] at returned
      exact absurd returned (retrieveEntry_ne_ok _ _ _ _ _)
    · exact invariant.retrieved other bytes (by simpa [same] using returned)
  case lookups =>
    intro position other entry named found accepted retrieveNamed
    rcases getElem?_append_event found with ⟨old, prefixed⟩ | ⟨last, recorded⟩
    · rw [prefixed]
      exact invariant.lookups position other entry named old accepted retrieveNamed
    · cases recorded
      rw [last, List.take_left' rfl, ← invariant.vacant_iff]
      exact retrieveEntry_notFound_iff _ _ accepted retrieveNamed
  case sets =>
    intro position other cell found
    rcases getElem?_append_event found with ⟨old, -⟩ | ⟨-, clash⟩
    · simpa using invariant.sets position other cell old
    · cases clash
  case set_once =>
    intro position position' other other' cell found found'
    rcases getElem?_append_event found with ⟨old, -⟩ | ⟨-, clash⟩
    · rcases getElem?_append_event found' with ⟨old', -⟩ | ⟨-, clash⟩
      · exact invariant.set_once position position' other other' cell old old'
      · cases clash
    · cases clash
  case filled_allocated =>
    exact invariant.filled_allocated

/-- A retrieve whose cell is filled answers its serialization. -/
theorem Invariant.retrieve_read {server : Server Sid Value} {index : Nat} {cell : CellId}
    {results : ComputationOutputs Value} (invariant : Invariant deployment server)
    (waiting : server.retrieves index = .awaiting cell)
    (filled : server.stores.cells cell = some results) :
    Invariant deployment { server with
      retrieves := Function.update server.retrieves index
        (.returned (.ok (deployment.backend.serializeResults results))) } := by
  refine { invariant with
    awaiting := fun other cell' waiting' => ?_
    retrieved := fun other bytes returned => ?_ }
  · by_cases same : other = index
    · subst same; simp at waiting'
    · exact invariant.awaiting other cell' (by simpa [same] using waiting')
  · by_cases same : other = index
    · subst same
      simp only [Function.update_same, RetrievePc.returned.injEq, Except.ok.injEq] at returned
      obtain ⟨named, named', stored⟩ := invariant.awaiting other cell waiting
      exact ⟨named, cell, results, named', stored, filled, returned.symm⟩
    · exact invariant.retrieved other bytes (by simpa [same] using returned)

/-- Two launches that inserted the same session id are the same launch. -/
theorem Invariant.inserter_unique {server : Server Sid Value} (invariant : Invariant deployment server)
    {sessionId : Sid} {first second : Nat}
    (firstMember : first ∈ inserters server.history sessionId)
    (secondMember : second ∈ inserters server.history sessionId) : first = second := by
  have single := invariant.inserted_once sessionId
  match inserted : inserters server.history sessionId, single with
  | [only], _ =>
      rw [inserted, List.mem_singleton] at firstMember secondMember
      rw [firstMember, secondMember]
  | [], _ => rw [inserted] at firstMember; cases firstMember
  | _ :: _ :: _, single => simp at single

/-- A task that panics, collects its results or looks up its cell changes only
its own program counter. -/
theorem Invariant.task_move {server : Server Sid Value} {index : Nat}
    {task : OutputTask Sid Value} {pc : TaskPc Value} (invariant : Invariant deployment server)
    (spawned : server.tasks index = some task)
    (pending : task.pc = .collecting ∨ ∃ results, task.pc = .lookingUp results)
    (allowed : pc = .panicked ∨
      (∃ results, pc = .lookingUp results ∧ collectResults task.outputs = some results) ∨
      (∃ results cell, task.pc = .lookingUp results ∧ pc = .setting cell results ∧
        server.stores.resultStores task.sessionId = some cell)) :
    Invariant deployment
      { server with tasks := Function.update server.tasks index (some { task with pc }) } := by
  have launched := invariant.task_launched index task spawned
  have unfinished : task.pc ≠ .finished := by
    rcases pending with moved | ⟨_, moved⟩ <;> rw [moved] <;> simp
  refine { invariant with
    launch_start := fun other started => ?_
    launch_inserted := fun other named waiting => ?_
    launch_ok := fun other returned => ?_
    task_launched := fun other task' spawned' => ?_
    task_results := fun other task' results spawned' moving => ?_
    task_cell := fun other task' cell results spawned' setting => ?_
    filled := fun named cell results stored filled => ?_ }
  · have differs : other ≠ index := fun same => by rw [same, launched] at started; cases started
    simpa [differs] using invariant.launch_start other started
  · have differs : other ≠ index := fun same => by rw [same, launched] at waiting; cases waiting
    simpa [differs] using invariant.launch_inserted other named waiting
  · by_cases same : other = index
    · subst same
      obtain ⟨task', spawned', member, ran⟩ := invariant.launch_ok other returned
      rw [spawned, Option.some.injEq] at spawned'
      subst spawned'
      exact ⟨{ task with pc }, by simp, member, ran⟩
    · simpa [same] using invariant.launch_ok other returned
  · by_cases same : other = index
    · subst same; exact launched
    · exact invariant.task_launched other task' (by simpa [same] using spawned')
  · by_cases same : other = index
    · subst same
      simp only [Function.update_same, Option.some.injEq] at spawned'
      subst spawned'
      rcases allowed with rfl | ⟨found, rfl, collected⟩ | ⟨looked, cell, looking, rfl, -⟩
      · simp at moving
      · have same : found = results := by simpa using moving
        exact same ▸ collected
      · have same : looked = results := by simpa using moving
        exact same ▸ invariant.task_results other task looked spawned (.inl looking)
    · exact invariant.task_results other task' results (by simpa [same] using spawned') moving
  · by_cases same : other = index
    · subst same
      simp only [Function.update_same, Option.some.injEq] at spawned'
      subst spawned'
      rcases allowed with rfl | ⟨found, rfl, -⟩ | ⟨looked, found, -, rfl, stored⟩
      · cases setting
      · cases setting
      · simp only [TaskPc.setting.injEq] at setting
        exact setting.1 ▸ stored
    · exact invariant.task_cell other task' cell results (by simpa [same] using spawned') setting
  · obtain ⟨launch, task', member, spawned', named', finished, rest⟩ :=
      invariant.filled named cell results stored filled
    have differs : launch ≠ index := fun same => by
      rw [same, spawned, Option.some.injEq] at spawned'
      exact unfinished (spawned' ▸ finished)
    exact ⟨launch, task', member, by simpa [differs] using spawned', named', finished, rest⟩

/-- The cell a task is about to set is still empty: only that task fills it. -/
theorem Invariant.setting_cell_empty {server : Server Sid Value} {index : Nat}
    {task : OutputTask Sid Value} {cell : CellId} {results : HashMap String Value}
    (invariant : Invariant deployment server)
    (spawned : server.tasks index = some task) (setting : task.pc = .setting cell results) :
    server.stores.cells cell = none := by
  obtain ⟨task', spawned', member, -⟩ :=
    invariant.launch_ok index (invariant.task_launched index task spawned)
  rw [spawned, Option.some.injEq] at spawned'
  subst spawned'
  cases filledCell : server.stores.cells cell with
  | none => rfl
  | some old =>
      obtain ⟨launch, task', member', spawned', -, finished, -⟩ := invariant.filled _ cell old
        (invariant.task_cell index task cell results spawned setting) filledCell
      rw [invariant.inserter_unique deployment member' member, spawned, Option.some.injEq]
        at spawned'
      rw [← spawned', setting] at finished
      cases finished

/-- A task that sets its session's cell fills a cell that was empty, with the
results it collected. -/
theorem Invariant.task_set {server : Server Sid Value} {index : Nat}
    {task : OutputTask Sid Value} {cell : CellId} {results : HashMap String Value}
    {elapsed : Duration} (invariant : Invariant deployment server)
    (spawned : server.tasks index = some task) (setting : task.pc = .setting cell results) :
    Invariant deployment { server with
      stores := server.stores.set cell ⟨results, some elapsed⟩,
      tasks := Function.update server.tasks index (some { task with pc := .finished }),
      history := server.history ++ [.set index cell] } := by
  have launched := invariant.task_launched index task spawned
  have collected := invariant.task_results index task results spawned (.inr ⟨cell, setting⟩)
  have stored := invariant.task_cell index task cell results spawned setting
  obtain ⟨task', spawned', member, ran⟩ := invariant.launch_ok index launched
  rw [spawned, Option.some.injEq] at spawned'
  subst spawned'
  have differs : ∀ launch task', server.tasks launch = some task' → task'.pc = .finished →
      launch ≠ index := fun launch task' spawned' finished same => by
    rw [same, spawned, Option.some.injEq] at spawned'
    rw [← spawned', setting] at finished
    cases finished
  have empty := invariant.setting_cell_empty deployment spawned setting
  constructor
  all_goals simp only [inserters_append, inserters_set, List.append_nil]
  case vacant_iff =>
    exact invariant.vacant_iff
  case inserted_once =>
    exact invariant.inserted_once
  case inserter_named =>
    exact invariant.inserter_named
  case cell_allocated =>
    exact invariant.cell_allocated
  case cell_owner =>
    exact invariant.cell_owner
  case launch_start =>
    intro other started
    have differs : other ≠ index := fun same => by rw [same, launched] at started; cases started
    simpa [differs] using invariant.launch_start other started
  case launch_inserted =>
    intro other named waiting
    have differs : other ≠ index := fun same => by rw [same, launched] at waiting; cases waiting
    simpa [differs] using invariant.launch_inserted other named waiting
  case launch_ok =>
    intro other returned
    by_cases same : other = index
    · subst same
      exact ⟨{ task with pc := .finished }, by simp, member, ran⟩
    · simpa [same] using invariant.launch_ok other returned
  case launch_error =>
    exact invariant.launch_error
  case task_launched =>
    intro other task' spawned'
    by_cases same : other = index
    · subst same; exact launched
    · exact invariant.task_launched other task' (by simpa [same] using spawned')
  case task_results =>
    intro other task' results' spawned' moving
    by_cases same : other = index
    · subst same
      simp only [Function.update_same, Option.some.injEq] at spawned'
      subst spawned'
      simp at moving
    · exact invariant.task_results other task' results' (by simpa [same] using spawned') moving
  case task_cell =>
    intro other task' cell' results' spawned' setting'
    by_cases same : other = index
    · subst same
      simp only [Function.update_same, Option.some.injEq] at spawned'
      subst spawned'
      cases setting'
    · exact invariant.task_cell other task' cell' results' (by simpa [same] using spawned') setting'
  case filled =>
    intro named cell' outputs stored' filled
    by_cases same : cell' = cell
    · subst same
      simp only [Stores.set_cells, ite_true, Option.some.injEq] at filled
      subst filled
      have owner := invariant.cell_owner _ _ _ stored' stored
      subst owner
      exact ⟨index, { task with pc := .finished }, member, by simp, rfl, rfl, collected, rfl⟩
    · obtain ⟨launch, task', member', spawned', rest⟩ :=
        invariant.filled named cell' outputs stored' (by simpa [same] using filled)
      exact ⟨launch, task', member', by
        simpa [differs launch task' spawned' rest.2.1] using spawned', rest⟩
  case awaiting =>
    exact invariant.awaiting
  case retrieved =>
    intro other bytes returned
    obtain ⟨named, cell', outputs, named', stored', filled, encoded⟩ :=
      invariant.retrieved other bytes returned
    have differs : cell' ≠ cell := fun same => by rw [same, empty] at filled; cases filled
    exact ⟨named, cell', outputs, named', stored', by simpa [differs] using filled, encoded⟩
  case lookups =>
    intro position other entry named found accepted retrieveNamed
    rcases getElem?_append_event found with ⟨old, prefixed⟩ | ⟨-, clash⟩
    · rw [prefixed]
      exact invariant.lookups position other entry named old accepted retrieveNamed
    · cases clash
  case sets =>
    intro position other cell' found
    rcases getElem?_append_event found with ⟨old, -⟩ | ⟨-, recorded⟩
    · obtain ⟨named, member', stored', filled⟩ := invariant.sets position other cell' old
      refine ⟨named, member', stored', ?_⟩
      by_cases same : cell' = cell <;> simp [same, filled]
    · simp only [Event.set.injEq] at recorded
      obtain ⟨rfl, rfl⟩ := recorded
      exact ⟨task.sessionId, member, stored, by simp⟩
  case set_once =>
    intro position position' other other' cell' found found'
    have earlier : ∀ position other : Nat,
        server.history[position]? = some (.set other cell) → False :=
      fun position other old => by
        obtain ⟨_, _, _, filled⟩ := invariant.sets position other cell old
        simp [empty] at filled
    rcases getElem?_append_event found with ⟨old, -⟩ | ⟨last, recorded⟩ <;>
      rcases getElem?_append_event found' with ⟨old', -⟩ | ⟨last', recorded'⟩
    · exact invariant.set_once position position' other other' cell' old old'
    · simp only [Event.set.injEq] at recorded'
      exact (earlier position other (recorded'.2 ▸ old)).elim
    · simp only [Event.set.injEq] at recorded
      exact (earlier position' other' (recorded.2 ▸ old')).elim
    · rw [last, last']
  case filled_allocated =>
    intro cell' outputs filled
    by_cases same : cell' = cell
    · exact same ▸ invariant.cell_allocated _ cell stored
    · exact invariant.filled_allocated cell' outputs (by simpa [same] using filled)

/-- Every step keeps the invariant. -/
theorem Invariant.step {server next : Server Sid Value} {action : Action}
    (invariant : Invariant deployment server)
    (stepped : step deployment server action = some next) : Invariant deployment next := by
  cases action with
  | launch index =>
      rcases launchStep_cases deployment stepped with
        ⟨pending, status, aborted, rfl⟩ | ⟨started, sessionId, named, vacant, rfl⟩ |
          ⟨sessionId, outputs, inserted, ran, rfl⟩
      · exact invariant.launch_fail deployment pending aborted
      · exact invariant.launch_insert deployment started named vacant
      · exact invariant.launch_spawn deployment inserted ran
  | retrieve index =>
      rcases retrieveStep_cases deployment stepped with
        ⟨started, rfl⟩ | ⟨cell, results, waiting, filled, rfl⟩
      · exact invariant.retrieve_lookup deployment started
      · exact invariant.retrieve_read deployment waiting filled
  | task index elapsed =>
      obtain ⟨task, spawned, ⟨pc, pending, allowed, rfl⟩ | ⟨cell, results, setting, rfl⟩⟩ :=
        taskStep_cases stepped
      · exact invariant.task_move deployment spawned pending allowed
      · exact invariant.task_set deployment spawned setting

/-- Every reachable state keeps the invariant. -/
theorem Reachable.invariant {server : Server Sid Value}
    (reachable : Reachable deployment server) : Invariant deployment server := by
  induction reachable with
  | initial => exact Invariant.initial deployment
  | step _ _ stepped invariant => exact invariant.step deployment stepped

/-- A step never removes or rebinds an entry of `result_stores`, and never
changes a filled cell. -/
theorem step_keeps_filled {server next : Server Sid Value} {action : Action}
    (invariant : Invariant deployment server)
    (stepped : step deployment server action = some next) :
    (∀ sessionId cell, server.stores.resultStores sessionId = some cell →
      next.stores.resultStores sessionId = some cell) ∧
    ∀ cell results, server.stores.cells cell = some results →
      next.stores.cells cell = some results := by
  cases action with
  | launch index =>
      rcases launchStep_cases deployment stepped with
        ⟨-, -, -, rfl⟩ | ⟨-, inserted, -, vacant, rfl⟩ | ⟨-, -, -, -, rfl⟩
      · exact ⟨fun _ _ => id, fun _ _ => id⟩
      · refine ⟨fun sessionId cell stored => ?_, fun cell results filled => ?_⟩
        · have differs : sessionId ≠ inserted := fun same => by
            rw [same, vacant] at stored; cases stored
          simpa [differs] using stored
        · simpa [(invariant.filled_allocated cell results filled).ne] using filled
      · exact ⟨fun _ _ => id, fun _ _ => id⟩
  | retrieve index =>
      rcases retrieveStep_cases deployment stepped with ⟨-, rfl⟩ | ⟨-, -, -, -, rfl⟩ <;>
        exact ⟨fun _ _ => id, fun _ _ => id⟩
  | task index elapsed =>
      obtain ⟨task, spawned, ⟨-, -, -, rfl⟩ | ⟨cell, results, setting, rfl⟩⟩ :=
        taskStep_cases stepped
      · exact ⟨fun _ _ => id, fun _ _ => id⟩
      · refine ⟨fun _ _ => id, fun cell' results' filled => ?_⟩
        have differs : cell' ≠ cell := fun same => by
          rw [same, invariant.setting_cell_empty deployment spawned setting] at filled
          cases filled
        simpa [differs] using filled

end Invariant

/-! ## Every interleaving -/

section Safety

variable {Sid Computation Value : Type} [DecidableEq Sid]
variable (deployment : Deployment Sid Computation Value)

/-- In every interleaving of any launches, retrieves and output tasks:

* at most one launch takes the `Vacant` branch for a session id, so at most one
  launch for it answers `Ok`, and every launch that fails answers `Aborted`;
* no step removes or rebinds an entry or changes a filled cell; each cell is set
  at most once, by the task of the launch that inserted its session id, with
  each output name of that launch's execution bound to the value its output
  resolved to;
* the lookup of a retrieve answers `NotFound` exactly when it comes before every
  insert of its session id, and a retrieve can only succeed with the
  serialization of its session's filled cell. -/
theorem choreography_interleavings_safe {server : Server Sid Value}
    (reachable : Reachable deployment server) :
    (∀ sessionId first second, Event.inserted first sessionId ∈ server.history →
      Event.inserted second sessionId ∈ server.history → first = second) ∧
    (∀ sessionId first second, server.launches first = .returned (.ok ()) →
      server.launches second = .returned (.ok ()) →
      deployment.launchSessionId first = some sessionId →
      deployment.launchSessionId second = some sessionId → first = second) ∧
    (∀ index status, server.launches index = .returned (.error status) →
      status.code = .aborted) ∧
    (∀ action next, step deployment server action = some next →
      (∀ sessionId cell, server.stores.resultStores sessionId = some cell →
        next.stores.resultStores sessionId = some cell) ∧
      ∀ cell results, server.stores.cells cell = some results →
        next.stores.cells cell = some results) ∧
    (∀ (position other index index' : Nat) (cell : CellId),
      server.history[position]? = some (.set index cell) →
      server.history[other]? = some (.set index' cell) → position = other) ∧
    (∀ (position index : Nat) (cell : CellId),
      server.history[position]? = some (.set index cell) →
      ∃ sessionId, Event.inserted index sessionId ∈ server.history ∧
        server.stores.resultStores sessionId = some cell) ∧
    (∀ sessionId cell results, server.stores.resultStores sessionId = some cell →
      server.stores.cells cell = some results →
      ∃ index outputs, Event.inserted index sessionId ∈ server.history ∧
        launchTail deployment.backend (deployment.launchRequest index).message sessionId =
          .ok outputs ∧
        (∀ name, results.outputs.get? name = (outputs.get? name).join) ∧
        (∀ name, outputs.get? name ≠ some none) ∧ results.elapsedTime.isSome) ∧
    (∀ (position index : Nat) (entry : RetrieveEntry) (sessionId : Sid),
      server.history[position]? = some (.lookedUp index entry) →
      checkChoreographer deployment.choreographer (deployment.retrieveRequest index).sender =
        .ok () →
      deployment.retrieveSessionId index = some sessionId →
      (entry = .returned (.error ⟨.notFound, "unknown session id"⟩) ↔
        ∀ launch, Event.inserted launch sessionId ∉ server.history.take position)) ∧
    (∀ index bytes, server.retrieves index = .returned (.ok bytes) →
      ∃ sessionId cell results, deployment.retrieveSessionId index = some sessionId ∧
        server.stores.resultStores sessionId = some cell ∧
        server.stores.cells cell = some results ∧
        bytes = deployment.backend.serializeResults results) := by
  have invariant := reachable.invariant deployment
  refine ⟨fun _ _ _ first second =>
      invariant.inserter_unique deployment (mem_inserters.2 first) (mem_inserters.2 second),
    fun sessionId first second firstOk secondOk firstNamed secondNamed => ?_,
    invariant.launch_error, fun _ _ stepped => step_keeps_filled deployment invariant stepped,
    invariant.set_once, fun position index cell found => ?_,
    fun sessionId cell results stored filled => ?_,
    fun position index entry sessionId found accepted named => ?_, invariant.retrieved⟩
  · obtain ⟨task, -, member, -⟩ := invariant.launch_ok first firstOk
    obtain ⟨task', -, member', -⟩ := invariant.launch_ok second secondOk
    rw [Option.some.inj ((invariant.inserter_named _ _ member).symm.trans firstNamed)] at member
    rw [Option.some.inj ((invariant.inserter_named _ _ member').symm.trans secondNamed)] at member'
    exact invariant.inserter_unique deployment member member'
  · obtain ⟨inserted, member, stored, -⟩ := invariant.sets position index cell found
    exact ⟨inserted, mem_inserters.1 member, stored⟩
  · obtain ⟨index, task, member, spawned, rfl, -, collected, elapsed⟩ :=
      invariant.filled sessionId cell results stored filled
    obtain ⟨task', spawned', -, ran⟩ :=
      invariant.launch_ok index (invariant.task_launched index task spawned)
    rw [spawned, Option.some.injEq] at spawned'
    subst spawned'
    exact ⟨index, task.outputs, mem_inserters.1 member, ran, collectResults_get? collected,
      collectResults_resolved collected, elapsed⟩
  · rw [invariant.lookups position index entry sessionId found accepted named,
      List.eq_nil_iff_forall_not_mem]
    simp only [mem_inserters]

end Safety

/-! ## A session orphaned by its launch -/

section Orphans

variable {Sid Computation Value : Type} [DecidableEq Sid]
variable (deployment : Deployment Sid Computation Value)

/-- A step keeps every event of the history and the response of every launch
that has returned. -/
theorem step_keeps_past {server next : Server Sid Value} {action : Action}
    (stepped : step deployment server action = some next) :
    (∀ event ∈ server.history, event ∈ next.history) ∧
    ∀ index response, server.launches index = .returned response → next.launches index = .returned response := by
  cases action with
  | launch launch =>
      have differs : ∀ index response, server.launches index = .returned response → index ≠ launch :=
        fun index response returned same => by
          have idle : launchStep deployment server launch = none := by
            unfold launchStep
            rw [← same, returned]
          cases stepped.symm.trans idle
      rcases launchStep_cases deployment stepped with ⟨-, -, -, -, rfl⟩ | ⟨-, -, -, -, rfl⟩ | ⟨-, -, -, -, rfl⟩
      all_goals
        exact ⟨fun event mem => by simp [mem], fun index response returned =>
          (Function.update_noteq (differs index response returned) _ _).trans returned⟩
  | retrieve index =>
      rcases retrieveStep_cases deployment stepped with ⟨-, rfl⟩ | ⟨-, -, -, -, rfl⟩ <;>
        exact ⟨fun event mem => by simp [mem], fun _ _ => id⟩
  | task index elapsed =>
      obtain ⟨-, -, ⟨-, -, -, rfl⟩ | ⟨-, -, -, rfl⟩⟩ := taskStep_cases stepped <;>
        exact ⟨fun event mem => by simp [mem], fun _ _ => id⟩

/-- The session of a launch that inserted it and then failed has an empty
cell: only the task of the inserting launch fills it, and a failed launch
spawns none. -/
theorem Invariant.orphaned {server : Server Sid Value} (invariant : Invariant deployment server)
    {index : Nat} {sessionId : Sid} {status : Status}
    (inserted : Event.inserted index sessionId ∈ server.history)
    (failed : server.launches index = .returned (.error status)) :
    ∃ cell, server.stores.resultStores sessionId = some cell ∧ server.stores.cells cell = none := by
  have member := mem_inserters.2 inserted
  obtain ⟨cell, stored⟩ := Option.ne_none_iff_exists'.1 fun vacant =>
    List.ne_nil_of_mem member ((invariant.vacant_iff sessionId).1 vacant)
  refine ⟨cell, stored, Option.eq_none_iff_forall_not_mem.2 fun results filled => ?_⟩
  obtain ⟨other, task, member', spawned, -⟩ := invariant.filled sessionId cell results stored filled
  have succeeded := invariant.task_launched other task spawned
  rw [invariant.inserter_unique deployment member' member, failed] at succeeded
  cases succeeded

omit [DecidableEq Sid] in
/-- A retrieve awaiting an empty cell cannot take a step. -/
theorem retrieveStep_awaiting_empty {server : Server Sid Value} {retrieve : Nat} {cell : CellId}
    (awaiting : server.retrieves retrieve = .awaiting cell) (empty : server.stores.cells cell = none) :
    retrieveStep deployment server retrieve = none := by
  unfold retrieveStep
  rw [awaiting]
  simp [retrieveAwait, empty]

/-- A launch that claimed its session id and then failed orphans the session:
along every continuation the session's cell stays empty, so no retrieve
awaiting it can take a step, and every retrieve of the id that the
choreographer check accepts finds the entry and awaits that cell. -/
theorem failed_launch_orphans_session {server later : Server Sid Value} (reachable : Reachable deployment server)
    {index : Nat} {sessionId : Sid} {status : Status}
    (inserted : Event.inserted index sessionId ∈ server.history)
    (failed : server.launches index = .returned (.error status))
    (continues : Relation.ReflTransGen (fun current next => ∃ action, step deployment current action = some next)
      server later) :
    ∃ cell, later.stores.resultStores sessionId = some cell ∧ later.stores.cells cell = none ∧
      (∀ retrieve, later.retrieves retrieve = .awaiting cell → retrieveStep deployment later retrieve = none) ∧
      ∀ retrieve, checkChoreographer deployment.choreographer (deployment.retrieveRequest retrieve).sender = .ok () →
        deployment.retrieveSessionId retrieve = some sessionId →
        retrieveEntry deployment.backend deployment.choreographer (deployment.retrieveRequest retrieve)
          later.stores = .awaiting cell := by
  have carried : Reachable deployment later ∧ Event.inserted index sessionId ∈ later.history ∧
      later.launches index = .returned (.error status) := by
    induction continues with
    | refl => exact ⟨reachable, inserted, failed⟩
    | tail _ stepped carried =>
      obtain ⟨action, stepped⟩ := stepped
      have kept := step_keeps_past deployment stepped
      exact ⟨.step action carried.1 stepped, kept.1 _ carried.2.1, kept.2 _ _ carried.2.2⟩
  obtain ⟨cell, stored, empty⟩ := (Reachable.invariant deployment carried.1).orphaned deployment carried.2.1 carried.2.2
  refine ⟨cell, stored, empty, fun _ awaiting => retrieveStep_awaiting_empty deployment awaiting empty,
    fun retrieve accepted named => ?_⟩
  rw [Deployment.retrieveSessionId] at named
  simp only [retrieveEntry, accepted, named, stored]

end Orphans

/-- Every client launches session `1` with a computation that does not
decode. -/
def undecodableLaunches : Deployment Nat Unit Nat where
  backend := lengthBackend
  choreographer := none
  launchRequest _ := ⟨.ok none, ⟨[1], [], [1], [1]⟩⟩
  retrieveRequest _ := ⟨.ok none, ⟨[1]⟩⟩

/-- The first launch of session `1` claims it and then fails to parse its
computation: the session's cell is empty. -/
theorem failed_launch_orphans_session_of_undecodable_computation :
    ∃ server : Server Nat Nat, Reachable undecodableLaunches server ∧ Event.inserted 0 1 ∈ server.history ∧
      server.launches 0 = .returned (.error ⟨.aborted, "failed to parse computation"⟩) ∧
      ∃ cell, server.stores.resultStores 1 = some cell ∧ server.stores.cells cell = none :=
  have reachable := Reachable.step (.launch 0)
    (Reachable.step (.launch 0) (@Reachable.initial _ _ _ _ undecodableLaunches) rfl) rfl
  have inserted : Event.inserted 0 1 ∈ ([] ++ [.inserted 0 1] : List (Event Nat)) :=
    List.mem_append_right [] (List.mem_singleton_self _)
  ⟨_, reachable, inserted, rfl, (failed_launch_orphans_session undecodableLaunches reachable inserted rfl .refl).imp
    fun _ orphaned => ⟨orphaned.1, orphaned.2.1⟩⟩

/-- Every client launches and retrieves session `1`. -/
def duplicateLaunches : Deployment Nat Unit Nat where
  backend := lengthBackend
  choreographer := none
  launchRequest _ := ⟨.ok none, ⟨[1], [1], [1], [1]⟩⟩
  retrieveRequest _ := ⟨.ok none, ⟨[1]⟩⟩

/-- After the first launch of session `1` inserts it, the second is refused. -/
theorem choreography_interleavings_safe_of_duplicate_launch :
    ∃ server : Server Nat Nat, Reachable duplicateLaunches server ∧
      server.launches 1 = .returned (.error
        ⟨.aborted, "session id exists already or inconsistent metric and result map"⟩) ∧
      ∀ index status, server.launches index = .returned (.error status) →
        status.code = .aborted :=
  have reachable := Reachable.step (.launch 1)
    (Reachable.step (.launch 0) (@Reachable.initial _ _ _ _ duplicateLaunches) rfl) rfl
  ⟨_, reachable, rfl, (choreography_interleavings_safe duplicateLaunches reachable).2.2.1⟩

/-! ## Delivery by a running output task -/

section Delivery

variable {Sid Computation Value : Type} [DecidableEq Sid]
variable (deployment : Deployment Sid Computation Value)

/-- The steps of the output task of launch `index`, the clock reading
`elapsed`. -/
def TaskRuns (index : Nat) (elapsed : Duration) (server later : Server Sid Value) : Prop :=
  Relation.ReflTransGen (fun current next => step deployment current (.task index elapsed) = some next) server later

section Steps

variable {server : Server Sid Value} {index : Nat} {task : OutputTask Sid Value} {cell : CellId}
  {results : HashMap String Value}

omit [DecidableEq Sid] in
theorem taskStep_collecting (spawned : server.tasks index = some task) (collecting : task.pc = .collecting)
    (collected : collectResults task.outputs = some results) (elapsed : Duration) :
    taskStep server index elapsed =
      some { server with tasks := Function.update server.tasks index (some { task with pc := .lookingUp results }) } := by
  simp only [taskStep, spawned, collecting, collected, Option.elim]

omit [DecidableEq Sid] in
theorem taskStep_lookingUp (spawned : server.tasks index = some task) (looking : task.pc = .lookingUp results)
    (stored : server.stores.resultStores task.sessionId = some cell) (elapsed : Duration) :
    taskStep server index elapsed =
      some { server with tasks := Function.update server.tasks index (some { task with pc := .setting cell results }) } := by
  simp only [taskStep, spawned, looking, stored, Option.elim]

omit [DecidableEq Sid] in
theorem taskStep_setting (spawned : server.tasks index = some task) (setting : task.pc = .setting cell results)
    (elapsed : Duration) :
    taskStep server index elapsed = some { server with
      stores := server.stores.set cell ⟨results, some elapsed⟩,
      tasks := Function.update server.tasks index (some { task with pc := .finished }),
      history := server.history ++ [.set index cell] } := by
  simp only [taskStep, spawned, setting]

/-- A task about to `set` fills the cell. -/
theorem TaskRuns.fill_of_setting (spawned : server.tasks index = some task) (setting : task.pc = .setting cell results)
    (elapsed : Duration) :
    ∃ later, TaskRuns deployment index elapsed server later ∧
      later.stores.resultStores = server.stores.resultStores ∧ later.stores.cells cell = some ⟨results, some elapsed⟩ :=
  ⟨_, .single (taskStep_setting spawned setting elapsed), rfl, Function.update_same _ _ _⟩

/-- A task about to look up its session fills the session's cell. -/
theorem TaskRuns.fill_of_lookingUp (spawned : server.tasks index = some task) (looking : task.pc = .lookingUp results)
    (stored : server.stores.resultStores task.sessionId = some cell) (elapsed : Duration) :
    ∃ later, TaskRuns deployment index elapsed server later ∧
      later.stores.resultStores = server.stores.resultStores ∧ later.stores.cells cell = some ⟨results, some elapsed⟩ :=
  have spawned' : ({ server with
      tasks := Function.update server.tasks index (some { task with pc := .setting cell results }) } : Server Sid Value).tasks
      index = some { task with pc := .setting cell results } := Function.update_same _ _ _
  have ⟨later, runs, kept, filled⟩ := TaskRuns.fill_of_setting deployment spawned' rfl elapsed
  ⟨later, .head (taskStep_lookingUp spawned looking stored elapsed) runs, kept, filled⟩

/-- A task collecting outputs that all resolve fills its session's cell. -/
theorem TaskRuns.fill_of_collecting (spawned : server.tasks index = some task) (collecting : task.pc = .collecting)
    (collected : collectResults task.outputs = some results)
    (stored : server.stores.resultStores task.sessionId = some cell) (elapsed : Duration) :
    ∃ later, TaskRuns deployment index elapsed server later ∧
      later.stores.resultStores = server.stores.resultStores ∧ later.stores.cells cell = some ⟨results, some elapsed⟩ :=
  have spawned' : ({ server with
      tasks := Function.update server.tasks index (some { task with pc := .lookingUp results }) } : Server Sid Value).tasks
      index = some { task with pc := .lookingUp results } := Function.update_same _ _ _
  have ⟨later, runs, kept, filled⟩ := TaskRuns.fill_of_lookingUp deployment spawned' rfl stored elapsed
  ⟨later, .head (taskStep_collecting spawned collecting collected elapsed) runs, kept, filled⟩

omit [DecidableEq Sid] in
theorem retrieveStep_awaiting_filled {retrieve : Nat} {filling : ComputationOutputs Value}
    (awaiting : server.retrieves retrieve = .awaiting cell) (filled : server.stores.cells cell = some filling) :
    retrieveStep deployment server retrieve = some { server with
      retrieves := Function.update server.retrieves retrieve
        (.returned (.ok (deployment.backend.serializeResults filling))) } := by
  simp only [retrieveStep, awaiting, retrieveAwait, filled, Option.map_some']

end Steps

/-- In a reachable state, the session of a spawned output task has a cell: the
launch that spawned the task inserted its session id, and no step removes an
entry. -/
theorem Invariant.task_stored {server : Server Sid Value} (invariant : Invariant deployment server)
    {index : Nat} {task : OutputTask Sid Value} (spawned : server.tasks index = some task) :
    ∃ cell, server.stores.resultStores task.sessionId = some cell := by
  obtain ⟨task', spawned', member, -⟩ := invariant.launch_ok index (invariant.task_launched index task spawned)
  obtain rfl : task = task' := Option.some.inj (spawned.symm.trans spawned')
  exact Option.ne_none_iff_exists'.1 fun vacant =>
    List.ne_nil_of_mem member ((invariant.vacant_iff task.sessionId).1 vacant)

/-- The output task of a launch whose outputs all resolve can always deliver:
from every reachable state in which it has neither finished nor panicked, its
own steps fill its session's cell with the collected results (its lookup of the
session never panics), after which every retrieve awaiting that cell returns
their serialization. -/
theorem running_task_delivers {server : Server Sid Value} (reachable : Reachable deployment server)
    {index : Nat} {task : OutputTask Sid Value} {results : HashMap String Value}
    (spawned : server.tasks index = some task) (collected : collectResults task.outputs = some results)
    (running : task.pc ≠ .finished ∧ task.pc ≠ .panicked) (elapsed : Duration) :
    ∃ later cell, TaskRuns deployment index elapsed server later ∧
      later.stores.resultStores task.sessionId = some cell ∧
      later.stores.cells cell = some ⟨results, some elapsed⟩ ∧
      ∀ retrieve, later.retrieves retrieve = .awaiting cell →
        retrieveStep deployment later retrieve = some { later with
          retrieves := Function.update later.retrieves retrieve
            (.returned (.ok (deployment.backend.serializeResults ⟨results, some elapsed⟩))) } := by
  have invariant := Reachable.invariant deployment reachable
  obtain ⟨cell, stored⟩ := invariant.task_stored deployment spawned
  have fills : ∃ later, TaskRuns deployment index elapsed server later ∧
      later.stores.resultStores = server.stores.resultStores ∧
      later.stores.cells cell = some ⟨results, some elapsed⟩ := by
    have same : ∀ results', collectResults task.outputs = some results' → results' = results :=
      fun _ collected' => Option.some.inj (collected'.symm.trans collected)
    match pc : task.pc, running with
    | .collecting, _ => exact TaskRuns.fill_of_collecting deployment spawned pc collected stored elapsed
    | .lookingUp results', _ =>
      obtain rfl := same results' (invariant.task_results index task results' spawned (.inl pc))
      exact TaskRuns.fill_of_lookingUp deployment spawned pc stored elapsed
    | .setting cell' results', _ =>
      obtain rfl := same results' (invariant.task_results index task results' spawned (.inr ⟨cell', pc⟩))
      obtain rfl : cell' = cell := Option.some.inj ((invariant.task_cell index task cell' results' spawned pc).symm.trans stored)
      exact TaskRuns.fill_of_setting deployment spawned pc elapsed
    | .finished, running => exact absurd rfl running.1
    | .panicked, running => exact absurd rfl running.2
  obtain ⟨later, runs, kept, filled⟩ := fills
  exact ⟨later, cell, runs, kept ▸ stored, filled,
    fun _ awaiting => retrieveStep_awaiting_filled deployment awaiting filled⟩

end Delivery

/-- Once the first launch of session `1` has inserted it and spawned its output
task, which awaits no outputs, the task fills the session's cell. -/
theorem running_task_delivers_of_no_outputs :
    ∃ server : Server Nat Nat, Reachable duplicateLaunches server ∧
      server.tasks 0 = some ⟨1, HashMap.empty, .collecting⟩ ∧
      ∃ later cell, TaskRuns duplicateLaunches 0 0 server later ∧ later.stores.resultStores 1 = some cell ∧
        later.stores.cells cell = some ⟨HashMap.empty, some 0⟩ :=
  have reachable := Reachable.step (.launch 0)
    (Reachable.step (.launch 0) (@Reachable.initial _ _ _ _ duplicateLaunches) rfl) rfl
  have spawned : Server.tasks _ 0 = some ⟨1, HashMap.empty, .collecting⟩ := rfl
  have delivers := running_task_delivers duplicateLaunches reachable spawned rfl ⟨nofun, nofun⟩ 0
  ⟨_, reachable, rfl, delivers.imp fun _ => Exists.imp fun _ delivered => ⟨delivered.1, delivered.2.1, delivered.2.2.1⟩⟩

end Moose.Choreography

import Mathlib

/-!
# The gRPC choreography server

`GrpcChoreography` keeps one shared map, `result_stores`, from session ids to
shared one-shot result cells. `launch_computation` checks the sender, claims the
session id with an atomic check-and-insert, decodes the payloads, runs the
computation and spawns a task that fills the cell; `retrieve_results` looks the
cell up and awaits it.

This module gives the handlers as functions of the server configuration, the
shared state and the request. The transport, `bincode` and the execution
context are the collaborators of `Backend`; `Interleaving` runs the handlers
and the spawned tasks concurrently.
-/

namespace Moose.Choreography

/-- Payload bytes of a request field. -/
abbrev Bytes := List UInt8

/-- A `std::time::Duration`, in nanoseconds. -/
abbrev Duration := Nat

/-! ## Hash maps -/

/-- A `std::collections::HashMap` as the list of its entries in iteration
order. Its keys are pairwise distinct. -/
structure HashMap (κ ν : Type) where
  entries : List (κ × ν)
  keys_nodup : (entries.map Prod.fst).Nodup

namespace HashMap

variable {κ ν : Type} [DecidableEq κ]

/-- `HashMap::with_capacity`: no entries. -/
def empty : HashMap κ ν := ⟨[], List.nodup_nil⟩

/-- The value bound to a key. -/
def get? (map : HashMap κ ν) (key : κ) : Option ν := map.entries.lookup key

/-- `HashMap::insert`: bind `key` to `value`, dropping an earlier binding. -/
def insert (map : HashMap κ ν) (key : κ) (value : ν) : HashMap κ ν where
  entries := (key, value) :: map.entries.filter fun entry => entry.1 ≠ key
  keys_nodup := by
    refine List.nodup_cons.2 ⟨?_, ((List.filter_sublist _).map _).nodup map.keys_nodup⟩
    simp

@[simp] theorem get?_empty (key : κ) : (empty : HashMap κ ν).get? key = none := rfl

theorem lookup_filter_ne (entries : List (κ × ν)) {key other : κ} (different : other ≠ key) :
    (entries.filter fun entry => entry.1 ≠ key).lookup other = entries.lookup other := by
  induction entries with
  | nil => rfl
  | cons entry rest ih =>
      obtain ⟨name, value⟩ := entry
      by_cases named : name = key
      · subst named
        simp_all [List.lookup, beq_false_of_ne different]
      · by_cases hit : other = name <;> simp_all [List.lookup]

@[simp] theorem get?_insert (map : HashMap κ ν) (key other : κ) (value : ν) :
    (map.insert key value).get? other = if other = key then some value else map.get? other := by
  by_cases same : other = key
  · simp [get?, insert, List.lookup, same]
  · simp only [get?, insert, List.lookup, beq_false_of_ne same, if_neg same]
    exact lookup_filter_ne _ same

end HashMap

/-! ## Requests, responses and results -/

/-- The `tonic::Code`s the handlers answer with. -/
inductive Code where
  | aborted
  | notFound
  deriving DecidableEq, Repr

/-- A `tonic::Status`: a code and its message. -/
structure Status where
  code : Code
  message : String
  deriving DecidableEq, Repr

/-- A `tonic::Request`. Its transport metadata is represented by what
`crate::grpc::extract_sender` reads from it: an extraction error, or the sender
identity the client certificate names, if any. -/
structure Request (α : Type) where
  sender : Except String (Option String)
  message : α

/-- `LaunchComputationRequest`: four `bincode` payloads. -/
structure LaunchComputationRequest where
  sessionId : Bytes
  computation : Bytes
  arguments : Bytes
  roleAssignment : Bytes

/-- `RetrieveResultsRequest`. -/
structure RetrieveResultsRequest where
  sessionId : Bytes

/-- `ComputationOutputs`: what the output task stores in the session's cell. -/
structure ComputationOutputs (Value : Type) where
  outputs : HashMap String Value
  elapsedTime : Option Duration

/-- The collaborators the handlers call: the `bincode` decoders of the payloads
and the encoder of the results, and `ExecutionContext::execute_computation`
(with this host's identity and the networking and storage its strategies build
for the session). The computation answers, for each output name, the value its
async output resolves to, or `none` when it never resolves. -/
structure Backend (Sid Computation Value : Type) where
  deserializeSessionId : Bytes → Option Sid
  deserializeComputation : Bytes → Option Computation
  deserializeArguments : Bytes → Option (HashMap String Value)
  deserializeRoleAssignment : Bytes → Option (HashMap String String)
  executeComputation : Sid → Computation → HashMap String Value → HashMap String String →
    Option (HashMap String (Option Value))
  serializeResults : ComputationOutputs Value → Bytes

/-! ## Shared state -/

/-- Result cells are named by the order in which `AsyncCell::shared()`
allocated them, which stands for the identity of their `Arc`. -/
abbrev CellId := Nat

/-- The state the handlers share: `result_stores`, the content of every result
cell (empty until `set`), and the next cell to allocate. -/
structure Stores (Sid Value : Type) where
  resultStores : Sid → Option CellId
  cells : CellId → Option (ComputationOutputs Value)
  nextCell : CellId

namespace Stores

variable {Sid Value : Type} [DecidableEq Sid]

/-- `ResultStores::default()`. -/
def empty : Stores Sid Value := ⟨fun _ => none, fun _ => none, 0⟩

/-- The `Vacant` branch: allocate an empty cell and bind the session id to it. -/
def insert (stores : Stores Sid Value) (sessionId : Sid) : Stores Sid Value where
  resultStores := Function.update stores.resultStores sessionId (some stores.nextCell)
  cells := Function.update stores.cells stores.nextCell none
  nextCell := stores.nextCell + 1

/-- `AsyncCell::set`. -/
def set (stores : Stores Sid Value) (cell : CellId) (results : ComputationOutputs Value) :
    Stores Sid Value :=
  { stores with cells := Function.update stores.cells cell (some results) }

@[simp] theorem insert_resultStores (stores : Stores Sid Value) (sessionId other : Sid) :
    (stores.insert sessionId).resultStores other =
      if other = sessionId then some stores.nextCell else stores.resultStores other :=
  Function.update_apply _ _ _ _

@[simp] theorem insert_cells (stores : Stores Sid Value) (sessionId : Sid) (cell : CellId) :
    (stores.insert sessionId).cells cell =
      if cell = stores.nextCell then none else stores.cells cell :=
  Function.update_apply _ _ _ _

@[simp] theorem insert_nextCell (stores : Stores Sid Value) (sessionId : Sid) :
    (stores.insert sessionId).nextCell = stores.nextCell + 1 := rfl

omit [DecidableEq Sid] in
@[simp] theorem set_resultStores (stores : Stores Sid Value) (cell : CellId)
    (results : ComputationOutputs Value) :
    (stores.set cell results).resultStores = stores.resultStores := rfl

omit [DecidableEq Sid] in
@[simp] theorem set_cells (stores : Stores Sid Value) (cell other : CellId)
    (results : ComputationOutputs Value) :
    (stores.set cell results).cells other =
      if other = cell then some results else stores.cells other :=
  Function.update_apply _ _ _ _

omit [DecidableEq Sid] in
@[simp] theorem set_nextCell (stores : Stores Sid Value) (cell : CellId)
    (results : ComputationOutputs Value) :
    (stores.set cell results).nextCell = stores.nextCell := rfl

end Stores

/-! ## Handlers -/

section Handlers

variable {Sid Computation Value : Type} [DecidableEq Sid]
variable (backend : Backend Sid Computation Value) (choreographer : Option String)

/-- `GrpcChoreography::check_choreographer`: the sender identity must be present
exactly when a choreographer is configured, and then equal to it. -/
def checkChoreographer (sender : Except String (Option String)) : Except Status Unit :=
  match sender with
  | .error _ => .error ⟨.aborted, "failed to extract sender identity"⟩
  | .ok actual =>
      match choreographer, actual with
      | none, none => .ok ()
      | none, some _ => .error ⟨.aborted, "did not expect choreographer certificate"⟩
      | some _, none => .error ⟨.aborted, "expected choreographer certificate"⟩
      | some expected, some actual =>
          if expected ≠ actual then
            .error ⟨.aborted, "expected choreographer did not match actual"⟩
          else .ok ()

/-- The `map_err(...)?` of a failed decode or execution: an `Aborted` status. -/
def orAbort {α : Type} (value : Option α) (message : String) : Except Status α :=
  match value with
  | some value => .ok value
  | none => .error ⟨.aborted, message⟩

/-- Where a launch stands after the `entry` match: it has returned, or it has
inserted a cell for the session id and goes on with the payloads. -/
inductive LaunchEntry (Sid : Type) where
  | returned (response : Except Status Unit)
  | inserted (sessionId : Sid)

/-- `launch_computation` up to its `entry` match: the sender check, the session
id, and the atomic check-and-insert on `result_stores`. -/
def launchEntry (request : Request LaunchComputationRequest) (stores : Stores Sid Value) :
    LaunchEntry Sid × Stores Sid Value :=
  match checkChoreographer choreographer request.sender with
  | .error status => (.returned (.error status), stores)
  | .ok () =>
      match backend.deserializeSessionId request.message.sessionId with
      | none => (.returned (.error ⟨.aborted, "failed to parse session id"⟩), stores)
      | some sessionId =>
          match stores.resultStores sessionId with
          | some _ =>
              (.returned (.error ⟨.aborted,
                "session id exists already or inconsistent metric and result map"⟩), stores)
          | none => (.inserted sessionId, stores.insert sessionId)

/-- The rest of a launch that took the `Vacant` branch: decode the computation,
the arguments and the role assignment, and execute. On success the handler
spawns the output task over the returned outputs and answers `Ok`. -/
def launchTail (request : LaunchComputationRequest) (sessionId : Sid) :
    Except Status (HashMap String (Option Value)) := do
  let computation ← orAbort (backend.deserializeComputation request.computation)
    "failed to parse computation"
  let arguments ← orAbort (backend.deserializeArguments request.arguments)
    "failed to parse arguments"
  let roleAssignments ← orAbort (backend.deserializeRoleAssignment request.roleAssignment)
    "failed to parse role assignment"
  orAbort (backend.executeComputation sessionId computation arguments roleAssignments)
    "failed launch computation"

/-- `launch_computation` run to its return with no other request in flight: the
response, the state after it, and the output task it spawned, given by its
session id and the outputs it awaits. -/
def launchComputation (request : Request LaunchComputationRequest) (stores : Stores Sid Value) :
    Except Status Unit × Stores Sid Value × Option (Sid × HashMap String (Option Value)) :=
  match launchEntry backend choreographer request stores with
  | (.returned response, after) => (response, after, none)
  | (.inserted sessionId, after) =>
      match launchTail backend request.message sessionId with
      | .error status => (.error status, after, none)
      | .ok outputs => (.ok (), after, some (sessionId, outputs))

/-- Where a retrieve stands after its lookup: it has returned, or it awaits the
cell it found. -/
inductive RetrieveEntry where
  | returned (response : Except Status Bytes)
  | awaiting (cell : CellId)

/-- `retrieve_results` up to its lookup in `result_stores`. -/
def retrieveEntry (request : Request RetrieveResultsRequest) (stores : Stores Sid Value) :
    RetrieveEntry :=
  match checkChoreographer choreographer request.sender with
  | .error status => .returned (.error status)
  | .ok () =>
      match backend.deserializeSessionId request.message.sessionId with
      | none => .returned (.error ⟨.aborted, "failed to parse session id"⟩)
      | some sessionId =>
          match stores.resultStores sessionId with
          | some cell => .awaiting cell
          | none => .returned (.error ⟨.notFound, "unknown session id"⟩)

/-- `results.value().get().await`: the serialized outputs, once the cell holds
them. -/
def retrieveAwait (stores : Stores Sid Value) (cell : CellId) : Option (Except Status Bytes) :=
  (stores.cells cell).map fun results => .ok (backend.serializeResults results)

end Handlers

/-- The loop of the output task: await each output in turn and insert it into
`results`. An output that never resolves makes its `unwrap` panic (`none`). -/
def collectResults {Value : Type} (outputs : HashMap String (Option Value)) :
    Option (HashMap String Value) :=
  outputs.entries.foldlM (fun results entry => entry.2.map (results.insert entry.1))
    HashMap.empty

/-- Folding the inserts over entries with distinct keys binds each key to its
entry's value, and leaves the other keys of the start map alone. -/
theorem foldlM_insert_get? {Value : Type} (entries : List (String × Option Value))
    (distinct : (entries.map Prod.fst).Nodup) (start results : HashMap String Value)
    (collected : entries.foldlM (fun results entry => entry.2.map (results.insert entry.1))
      start = some results) (name : String) :
    results.get? name = (entries.lookup name).getD (start.get? name) := by
  induction entries generalizing start with
  | nil => cases collected; rfl
  | cons entry rest ih =>
      obtain ⟨key, value | value⟩ := entry
      · cases collected
      · simp only [List.map_cons, List.nodup_cons] at distinct
        rw [ih distinct.2 _ collected, List.lookup_cons]
        by_cases same : name = key
        · subst same
          have absent : rest.lookup name = none := by
            rw [List.lookup_eq_none_iff]
            intro other member
            simpa using fun named : name = other.1 =>
              distinct.1 (named ▸ List.mem_map_of_mem _ member)
          simp [absent]
        · simp [beq_false_of_ne same, same]

/-- Folding the inserts succeeds only when every entry holds a value. -/
theorem foldlM_insert_resolved {Value : Type} (entries : List (String × Option Value))
    (start results : HashMap String Value)
    (collected : entries.foldlM (fun results entry => entry.2.map (results.insert entry.1))
      start = some results) : ∀ entry ∈ entries, entry.2.isSome := by
  induction entries generalizing start with
  | nil => simp
  | cons entry rest ih =>
      obtain ⟨key, value | value⟩ := entry
      · cases collected
      · intro member inEntries
        rcases List.mem_cons.1 inEntries with rfl | inRest
        · rfl
        · exact ih _ collected member inRest

/-- The output task sets its cell only when every output resolved. -/
theorem collectResults_resolved {Value : Type} {outputs : HashMap String (Option Value)}
    {results : HashMap String Value} (collected : collectResults outputs = some results)
    (name : String) : outputs.get? name ≠ some none := by
  intro unresolved
  obtain ⟨before, after, split, -⟩ := List.lookup_eq_some_iff.1 unresolved
  have := foldlM_insert_resolved _ _ _ collected (name, none) (by simp [split])
  cases this

/-- The results the output task collects bind exactly the output names, each to
the value its output resolved to. -/
theorem collectResults_get? {Value : Type} {outputs : HashMap String (Option Value)}
    {results : HashMap String Value} (collected : collectResults outputs = some results)
    (name : String) : results.get? name = (outputs.get? name).join := by
  rw [foldlM_insert_get? _ outputs.keys_nodup _ _ collected]
  show (outputs.entries.lookup name).getD none = (outputs.entries.lookup name).join
  cases outputs.entries.lookup name <;> rfl

/-- A backend over byte payloads, for concrete runs: a nonempty session id
payload decodes to its length, the other payloads decode when nonempty, and
every computation has no outputs. -/
def lengthBackend : Backend Nat Unit Nat where
  deserializeSessionId bytes := if bytes = [] then none else some bytes.length
  deserializeComputation bytes := if bytes = [] then none else some ()
  deserializeArguments bytes := if bytes = [] then none else some HashMap.empty
  deserializeRoleAssignment bytes := if bytes = [] then none else some HashMap.empty
  executeComputation _ _ _ _ := some HashMap.empty
  serializeResults _ := []

/-! ## What a single handler does -/

section Contracts

variable {Sid Computation Value : Type} [DecidableEq Sid]
variable (backend : Backend Sid Computation Value) (choreographer : Option String)

/-- Every refusal of `check_choreographer` is `Aborted`. -/
theorem checkChoreographer_aborted {sender : Except String (Option String)} {status : Status}
    (rejected : checkChoreographer choreographer sender = .error status) :
    status.code = .aborted := by
  unfold checkChoreographer at rejected
  split at rejected
  · cases rejected; rfl
  · split at rejected <;> (try split at rejected) <;> cases rejected <;> rfl

/-- A result that can only fail with an `Aborted` status. -/
def AbortsOnly {α : Type} (result : Except Status α) : Prop :=
  ∀ status, result = .error status → status.code = .aborted

theorem abortsOnly_orAbort {α : Type} (value : Option α) (message : String) :
    AbortsOnly (orAbort value message) := by
  intro status failed
  cases value <;> cases failed
  rfl

theorem abortsOnly_bind {α β : Type} {first : Except Status α} {rest : α → Except Status β}
    (firstAborts : AbortsOnly first) (restAborts : ∀ value, AbortsOnly (rest value)) :
    AbortsOnly (first >>= rest) := by
  intro status failed
  cases first with
  | error error => exact firstAborts status (by simpa [bind, Except.bind] using failed)
  | ok value => exact restAborts value status failed

omit [DecidableEq Sid] in
/-- Every failure after the insert is `Aborted`. -/
theorem launchTail_aborted (request : LaunchComputationRequest) (sessionId : Sid) :
    AbortsOnly (launchTail backend request sessionId) :=
  abortsOnly_bind (abortsOnly_orAbort _ _) fun _ =>
    abortsOnly_bind (abortsOnly_orAbort _ _) fun _ =>
      abortsOnly_bind (abortsOnly_orAbort _ _) fun _ => abortsOnly_orAbort _ _

/-- A launch that returns at its `entry` match returns an `Aborted` error and
leaves the state alone. -/
theorem launchEntry_returned {request : Request LaunchComputationRequest}
    {stores after : Stores Sid Value} {response : Except Status Unit}
    (returned : launchEntry backend choreographer request stores = (.returned response, after)) :
    after = stores ∧ ∃ status, response = .error status ∧ status.code = .aborted := by
  unfold launchEntry at returned
  split at returned
  · cases returned
    exact ⟨rfl, _, rfl, checkChoreographer_aborted choreographer ‹_›⟩
  · split at returned
    · cases returned; exact ⟨rfl, _, rfl, rfl⟩
    · split at returned <;> cases returned
      exact ⟨rfl, _, rfl, rfl⟩

/-- A launch takes the `Vacant` branch exactly for an accepted sender whose
session id decodes to a vacant one, and inserts a cell for it. -/
theorem launchEntry_inserted {request : Request LaunchComputationRequest}
    {stores after : Stores Sid Value} {sessionId : Sid}
    (inserted : launchEntry backend choreographer request stores = (.inserted sessionId, after)) :
    checkChoreographer choreographer request.sender = .ok () ∧
      backend.deserializeSessionId request.message.sessionId = some sessionId ∧
      stores.resultStores sessionId = none ∧ after = stores.insert sessionId := by
  unfold launchEntry at inserted
  split at inserted
  · cases inserted
  · split at inserted
    · cases inserted
    · split at inserted
      · cases inserted
      · cases inserted
        exact ⟨‹_›, ‹_›, ‹_›, rfl⟩

omit [DecidableEq Sid] in
/-- A retrieve awaits a cell only after finding it under its own session id. -/
theorem retrieveEntry_awaiting {request : Request RetrieveResultsRequest}
    {stores : Stores Sid Value} {cell : CellId}
    (awaiting : retrieveEntry backend choreographer request stores = .awaiting cell) :
    ∃ sessionId, backend.deserializeSessionId request.message.sessionId = some sessionId ∧
      stores.resultStores sessionId = some cell := by
  unfold retrieveEntry at awaiting
  split at awaiting
  · cases awaiting
  · split at awaiting
    · cases awaiting
    · split at awaiting
      · cases awaiting; exact ⟨_, ‹_›, ‹_›⟩
      · cases awaiting

omit [DecidableEq Sid] in
/-- A retrieve never succeeds at its lookup: it answers an error or awaits. -/
theorem retrieveEntry_ne_ok (request : Request RetrieveResultsRequest) (stores : Stores Sid Value)
    (bytes : Bytes) :
    retrieveEntry backend choreographer request stores ≠ .returned (.ok bytes) := by
  unfold retrieveEntry
  split
  · simp
  · split
    · simp
    · split <;> simp

omit [DecidableEq Sid] in
/-- For an accepted sender and a decodable session id, a retrieve answers
`NotFound` exactly when its lookup finds no entry. -/
theorem retrieveEntry_notFound_iff {request : Request RetrieveResultsRequest}
    {stores : Stores Sid Value} {sessionId : Sid}
    (accepted : checkChoreographer choreographer request.sender = .ok ())
    (parsed : backend.deserializeSessionId request.message.sessionId = some sessionId) :
    retrieveEntry backend choreographer request stores =
        .returned (.error ⟨.notFound, "unknown session id"⟩) ↔
      stores.resultStores sessionId = none := by
  unfold retrieveEntry
  cases stored : stores.resultStores sessionId <;> simp [accepted, parsed, stored]

omit [DecidableEq Sid] in
/-- `check_choreographer` refuses exactly a sender whose identity cannot be
extracted, one with an identity when no choreographer is configured, one
without when one is, and one whose identity differs from the configured one. -/
theorem checkChoreographer_rejects_iff (sender : Except String (Option String)) :
    (∃ status, checkChoreographer choreographer sender = .error status) ↔
      (∃ failure, sender = .error failure) ∨ (choreographer = none ∧ ∃ actual, sender = .ok (some actual)) ∨
      (choreographer.isSome ∧ sender = .ok none) ∨
      ∃ expected actual, choreographer = some expected ∧ sender = .ok (some actual) ∧ expected ≠ actual := by
  rcases sender with failure | _ | actual <;> rcases choreographer with _ | expected <;> simp [checkChoreographer]
  by_cases same : expected = actual <;> simp [same]

/-- `check_choreographer` refuses exactly a sender whose identity cannot be
extracted, one with an identity when no choreographer is configured, one
without when one is, and one whose identity differs from the configured one.
A request it refuses gets the check's `Aborted` status from either handler,
whatever the shared state: the launch leaves the state as it was and spawns no
task, and the retrieve answers before its lookup. -/
theorem rejected_sender_aborts_without_effect :
    (∀ sender : Except String (Option String), (∃ status, checkChoreographer choreographer sender = .error status) ↔
      (∃ failure, sender = .error failure) ∨ (choreographer = none ∧ ∃ actual, sender = .ok (some actual)) ∨
      (choreographer.isSome ∧ sender = .ok none) ∨
      ∃ expected actual, choreographer = some expected ∧ sender = .ok (some actual) ∧ expected ≠ actual) ∧
    ∀ {sender : Except String (Option String)} {status : Status},
      checkChoreographer choreographer sender = .error status →
      status.code = .aborted ∧
        (∀ (message : LaunchComputationRequest) (stores : Stores Sid Value),
          launchComputation backend choreographer ⟨sender, message⟩ stores =
            (.error status, stores, none)) ∧
        ∀ (message : RetrieveResultsRequest) (stores : Stores Sid Value),
          retrieveEntry backend choreographer ⟨sender, message⟩ stores = .returned (.error status) :=
  ⟨checkChoreographer_rejects_iff choreographer, fun rejected => ⟨checkChoreographer_aborted choreographer rejected,
    fun _ _ => by simp [launchComputation, launchEntry, rejected],
    fun _ _ => by simp [retrieveEntry, rejected]⟩⟩

/-- A configured choreographer refuses a request without a certificate, in
either handler. -/
theorem rejected_sender_aborts_without_effect_of_missing_certificate :
    checkChoreographer (some "choreographer") (.ok none) =
        .error ⟨.aborted, "expected choreographer certificate"⟩ ∧
      launchComputation lengthBackend (some "choreographer") ⟨.ok none, ⟨[1], [1], [1], [1]⟩⟩
          (Stores.empty : Stores Nat Nat) =
        (.error ⟨.aborted, "expected choreographer certificate"⟩, Stores.empty, none) :=
  have rejected : checkChoreographer (some "choreographer") (.ok none) =
      .error ⟨.aborted, "expected choreographer certificate"⟩ := rfl
  ⟨rejected, ((rejected_sender_aborts_without_effect lengthBackend _).2 rejected).2.1 _ _⟩

/-- A launch that claims a vacant session id and then fails (a payload does not
decode, or the execution fails) answers its `Aborted` status but keeps the new
entry: its cell is empty and no task was spawned to fill it, a later launch for
the same id is refused as a duplicate, and a retrieve for the id waits on the
empty cell instead of answering `NotFound`. -/
theorem failed_launch_leaves_session_entry (request : Request LaunchComputationRequest)
    (stores : Stores Sid Value) (sessionId : Sid) {status : Status}
    (accepted : checkChoreographer choreographer request.sender = .ok ())
    (parsed : backend.deserializeSessionId request.message.sessionId = some sessionId)
    (vacant : stores.resultStores sessionId = none)
    (failed : launchTail backend request.message sessionId = .error status) :
    launchComputation backend choreographer request stores =
        (.error status, stores.insert sessionId, none) ∧
      (stores.insert sessionId).resultStores sessionId = some stores.nextCell ∧
      (stores.insert sessionId).cells stores.nextCell = none ∧
      (∀ retry : Request LaunchComputationRequest,
        checkChoreographer choreographer retry.sender = .ok () →
        backend.deserializeSessionId retry.message.sessionId = some sessionId →
        launchComputation backend choreographer retry (stores.insert sessionId) =
          (.error ⟨.aborted, "session id exists already or inconsistent metric and result map"⟩,
            stores.insert sessionId, none)) ∧
      ∀ retrieve : Request RetrieveResultsRequest,
        checkChoreographer choreographer retrieve.sender = .ok () →
        backend.deserializeSessionId retrieve.message.sessionId = some sessionId →
        retrieveEntry backend choreographer retrieve (stores.insert sessionId) =
          .awaiting stores.nextCell := by
  refine ⟨?_, by simp, by simp, fun retry retryAccepted retryParsed => ?_,
    fun retrieve retrieveAccepted retrieveParsed => ?_⟩
  · simp [launchComputation, launchEntry, accepted, parsed, vacant, failed]
  · simp [launchComputation, launchEntry, retryAccepted, retryParsed]
  · simp [retrieveEntry, retrieveAccepted, retrieveParsed]

/-- With no choreographer configured, a launch whose computation payload is
empty claims session `1` and then fails to decode: the entry stays. -/
theorem failed_launch_leaves_session_entry_of_empty_computation :
    checkChoreographer none (.ok none) = .ok () ∧
      lengthBackend.deserializeSessionId [1] = some 1 ∧
      (Stores.empty : Stores Nat Nat).resultStores 1 = none ∧
      launchTail lengthBackend ⟨[1], [], [1], [1]⟩ 1 =
        .error ⟨.aborted, "failed to parse computation"⟩ ∧
      launchComputation lengthBackend none ⟨.ok none, ⟨[1], [], [1], [1]⟩⟩
          (Stores.empty : Stores Nat Nat) =
        (.error ⟨.aborted, "failed to parse computation"⟩, Stores.empty.insert 1, none) :=
  ⟨rfl, rfl, rfl, rfl,
    (failed_launch_leaves_session_entry lengthBackend none ⟨.ok none, ⟨[1], [], [1], [1]⟩⟩
      Stores.empty 1 rfl rfl rfl rfl).1⟩

end Contracts

end Moose.Choreography

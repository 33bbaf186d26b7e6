/-!
# Computations, placements and errors

The data model shared by the executors and the kernels: placements, the
closed operator catalogue, operations and computations (`crate::computation`),
and the errors kernels and sessions report (`crate::error`).

The static attributes each operator variant carries (axes, shapes, constants)
are not read by any modelled function and are left out: an operator is its
variant.
-/

namespace Moose

/-- A logical participant name. -/
abbrev Role := String

/-- `HostPlacement`: computation owned by one role. -/
structure HostPlacement where
  owner : Role
  deriving DecidableEq, Repr

/-- `ReplicatedPlacement`: a 2-out-of-3 secret-sharing group of three roles. -/
structure ReplicatedPlacement where
  owners : Role × Role × Role
  deriving DecidableEq, Repr

/-- `Mirrored3Placement`: three hosts each holding the same public value. -/
structure Mirrored3Placement where
  owners : Role × Role × Role
  deriving DecidableEq, Repr

/-- `Placement`. -/
inductive Placement where
  | host (placement : HostPlacement)
  | replicated (placement : ReplicatedPlacement)
  | mirrored3 (placement : Mirrored3Placement)
  deriving DecidableEq, Repr

/-- `Operator`: the closed catalogue, in the order of the symbolic dispatch. -/
inductive Operator where
  | receive | send | abs | add | adtToRep | addN | and | argmax | atLeast2D
  | bitCompose | bitDecompose | bitExtract | broadcast | cast | concat | constant
  | decrypt | demirror | deriveSeed | dot | diag | div | equal | equalZero | exp
  | expandDims | fill | fixedpointDecode | fixedpointEncode | greater | identity
  | index | indexAxis | input | inverse | less | load | log | log2 | maximum | mean
  | mirror | msb | mul | mux | neg | ones | or | pow2 | prfKeyGen | relu | reshape
  | reveal | repToAdt | ringFixedpointArgmax | ringFixedpointDecode
  | ringFixedpointEncode | ringFixedpointMean | ringInject | sample | sampleSeeded
  | save | shape | share | shl | shlDim | shr | sigmoid | sign | slice | softmax
  | sqrt | squeeze | sub | sum | transpose | truncPr | output | xor | zeros
  deriving DecidableEq, Repr

/-- `Operation`: a named, placed operator applied to the outputs of the
operations its inputs name. -/
structure Operation where
  name : String
  kind : Operator
  inputs : List String
  placement : Placement
  deriving DecidableEq, Repr

/-- `Computation`: operations in order. -/
structure Computation where
  operations : List Operation
  deriving DecidableEq, Repr

/-- `crate::error::Error`, the variants the modelled code raises. -/
inductive Error where
  | invalidArgument (message : String)
  | kernelError (message : String)
  | unimplementedOperator (message : String)
  | compilation (message : String)
  | missingArgument (name : String)
  deriving DecidableEq, Repr

/-- Modelled from the spec: the text `Error`'s `Display` prints, by the
`#[error(..)]` format of each variant in `crate::error` (not among the
sources): the variant's prefix, then the message it carries. -/
def Error.message : Error → String
  | .invalidArgument message => "Invalid argument: " ++ message
  | .kernelError message => "Kernel error: " ++ message
  | .unimplementedOperator message => "Operator instantiation not supported: " ++ message
  | .compilation message => "Compilation error: " ++ message
  | .missingArgument name => "Missing argument \x27" ++ name ++ "\x27"

/-- How a call ends when it does not return a value: an `Err` its caller sees,
or a panic (`unimplemented!`, `todo!`, a failed `unwrap` or assertion, an
out-of-range index) that unwinds past every caller. -/
inductive Failure where
  | error (error : Error)
  | panic (message : String)
  deriving DecidableEq, Repr

/-- A chain of `?`s succeeded exactly when its first step did and the rest
succeeded on that step's value. -/
theorem bind_eq_ok {ε α β : Type} {x : Except ε α} {f : α → Except ε β} {r : β} :
    x >>= f = .ok r ↔ ∃ a, x = .ok a ∧ f a = .ok r := by
  cases x <;> simp [bind, Except.bind]

/-- Every input of every operation names an operation before it. -/
def Computation.WellFormed (computation : Computation) : Prop :=
  ∀ (position : Nat) (operation : Operation), computation.operations[position]? = some operation →
    ∀ input ∈ operation.inputs, ∃ earlier < position, ∃ producer : Operation,
      computation.operations[earlier]? = some producer ∧ producer.name = input

/-- Appending an operation whose inputs all name operations of a well-formed
vector keeps it well formed. -/
theorem Computation.WellFormed.append {operations : List Operation}
    (wellFormed : Computation.WellFormed ⟨operations⟩) {operation : Operation}
    (inputsKnown : operation.inputs ⊆ operations.map Operation.name) :
    Computation.WellFormed ⟨operations ++ [operation]⟩ := by
  intro position found atPosition input mem
  rcases Nat.lt_or_ge position operations.length with before | after
  · rw [List.getElem?_append_left before] at atPosition
    obtain ⟨earlier, lt, producer, produced, named⟩ := wellFormed position found atPosition input mem
    exact ⟨earlier, lt, producer, by rw [List.getElem?_append_left (by omega)]; exact produced, named⟩
  · obtain ⟨rfl, rfl⟩ : position = operations.length ∧ found = operation := by
      rw [List.getElem?_append_right after] at atPosition
      obtain ⟨extra, rfl⟩ := Nat.exists_eq_add_of_le after
      cases extra <;> simp_all [Nat.add_sub_cancel_left]
    obtain ⟨producer, produced, named⟩ := List.mem_map.1 (inputsKnown mem)
    obtain ⟨earlier, atEarlier⟩ := List.mem_iff_getElem?.1 produced
    have lt := (List.getElem?_eq_some_iff.1 atEarlier).1
    exact ⟨earlier, lt, producer, by rw [List.getElem?_append_left lt]; exact atEarlier, named⟩

end Moose

/-
Constructor arrays and constructor plans (`elf/elf32_lifecycle.h`,
`elf/linking/elf32_lifecycle.cpp`).

* `decodeElf32FunctionArray`: the words of an `INIT_ARRAY` or `FINI_ARRAY`;
* `InitPlanContext`, `visit`: the depth-first visit of a dependency graph that
  collects the constructor calls;
* `planElf32InitArrayCalls`: the plan of a root.

A visit takes the subtraction by which it computes the words left as a
parameter; the source's is that of `uint32_t`, another one may report a wrap.
-/
import LibA32Android.Elf.DependencyLoader

namespace LibA32Android

open Foundations QueryProgram

/-! ### Function arrays -/

/-- `Elf32FunctionArrayDecodeOptions`. -/
structure Elf32FunctionArrayDecodeOptions where
  maxEntries : UInt32 := 0
  deriving DecidableEq, Repr

/-- `Elf32FunctionArrayDecodeError`, without `None`. -/
inductive Elf32FunctionArrayDecodeError where
  | invalidArraySize
  | rangeOverflow
  | tooManyEntries
  | readFailed
  deriving DecidableEq, Repr

/-- The entry loop, with the number of entries left and the index of the next. -/
def decodeFunctionEntries (array : Elf32FunctionArrayMetadata) :
    ℕ → ℕ → GuestRead Elf32FunctionArrayDecodeError (List UInt32)
  | 0, _ => return []
  | left + 1, index => do
    let address := array.guestAddress.toNat + index * 4
    reject (address > 0xffffffff) .rangeOverflow
    match ← readBytes (UInt32.ofNat address) 4 with
    | none => .fail .readFailed
    | some bytes =>
      let entries ← decodeFunctionEntries array left (index + 1)
      return decodeU32Le bytes 0 :: entries

/-- `decode_elf32_function_array`. -/
def decodeElf32FunctionArray (array : Elf32FunctionArrayMetadata)
    (options : Elf32FunctionArrayDecodeOptions) :
    GuestRead Elf32FunctionArrayDecodeError (List UInt32) := do
  reject (array.size % 4 ≠ 0) .invalidArraySize
  let entryCount := array.size / 4
  reject (entryCount > options.maxEntries) .tooManyEntries
  reject (array.guestAddress.toNat + array.size.toNat > 2 ^ 32) .rangeOverflow
  decodeFunctionEntries array entryCount.toNat 0

/-! ### Constructor plans -/

/-- `Elf32InitCall`. -/
structure Elf32InitCall where
  objectIndex : ℕ
  arrayIndex : UInt32
  function : UInt32
  deriving DecidableEq, Repr

/-- `Elf32InitPlanOptions`. -/
structure Elf32InitPlanOptions where
  maxObjects : UInt32 := 0
  maxEntries : UInt32 := 0
  deriving DecidableEq, Repr

/-- `Elf32InitPlanError`, without `None`. -/
inductive Elf32InitPlanError where
  | invalidOptions
  | invalidRootObject
  | invalidGraphEdge
  | objectLimitExceeded
  | entryLimitExceeded
  | decodeFailed
  deriving DecidableEq, Repr

/-- The error part of `Elf32InitPlanResult`. -/
structure Elf32InitPlanFailure where
  error : Elf32InitPlanError
  failingObject : Option ℕ := none
  decodeError : Option Elf32FunctionArrayDecodeError := none
  deriving DecidableEq, Repr

/-- `InitVisitState`. -/
inductive InitVisitState where
  | unseen
  | visiting
  | complete
  deriving DecidableEq, Repr

/-- The fields of `InitPlanContext` that change. -/
structure InitPlanContext where
  states : List InitVisitState
  visitedObjects : UInt32 := 0
  decodedEntries : UInt32 := 0
  calls : List Elf32InitCall := []
  deriving DecidableEq, Repr

/-- `states[object_index]`. -/
def InitPlanContext.state (ctx : InitPlanContext) (objectIndex : ℕ) : InitVisitState :=
  ctx.states.getD objectIndex .unseen

/-- The calls of an object: the words of its array but for the null and
all-ones sentinels. -/
def initCallsOf (objectIndex : ℕ) (entries : List UInt32) : List Elf32InitCall :=
  entries.zipIdx.filterMap fun (function, index) =>
    if function = 0 ∨ function = 0xffffffff then none
    else some { objectIndex, arrayIndex := UInt32.ofNat index, function }

section Visit

variable (sub : UInt32 → UInt32 → Except Elf32InitPlanFailure UInt32)
  (graph : Elf32DependencyGraph)
  (options : Elf32InitPlanOptions)

/-- The part of a visit after the dependencies: decode the array of the object
within the entries left, and append its calls. -/
def addInitArray (objectIndex : ℕ) (ctx : InitPlanContext) :
    GuestRead Elf32InitPlanFailure InitPlanContext :=
  match (graph.objects.getD objectIndex default).linkerMetadata.initArray with
  | none => return ctx
  | some array => do
    let remaining ← ofExcept (sub options.maxEntries ctx.decodedEntries)
    match ← (decodeElf32FunctionArray array { maxEntries := remaining }).attempt with
    | .error e =>
      .fail { error := if e = .tooManyEntries then .entryLimitExceeded else .decodeFailed
              failingObject := some objectIndex
              decodeError := some e }
    | .ok entries =>
      return { ctx with
        decodedEntries := ctx.decodedEntries + UInt32.ofNat entries.length
        calls := ctx.calls ++ initCallsOf objectIndex entries }

/-- The edge loop of a visit. -/
def visitEdges (objectIndex : ℕ)
    (visit : ℕ → InitPlanContext → GuestRead Elf32InitPlanFailure InitPlanContext) :
    List Elf32DependencyEdge → InitPlanContext → GuestRead Elf32InitPlanFailure InitPlanContext
  | [], ctx => return ctx
  | edge :: edges, ctx => do
    reject (edge.targetObject ≥ graph.objects.length)
      { error := .invalidGraphEdge, failingObject := some objectIndex }
    let ctx ← visit edge.targetObject ctx
    visitEdges objectIndex visit edges ctx

/-- `InitPlanContext::visit`.  Every active visit has counted one object, so that
without levels left the object limit is reached. -/
def visit : ℕ → ℕ → InitPlanContext → GuestRead Elf32InitPlanFailure InitPlanContext
  | 0, objectIndex, ctx =>
    if ctx.state objectIndex ≠ .unseen then return ctx
    else .fail { error := .objectLimitExceeded, failingObject := some objectIndex }
  | levels + 1, objectIndex, ctx =>
    if ctx.state objectIndex ≠ .unseen then return ctx
    else do
      reject (ctx.visitedObjects ≥ options.maxObjects)
        { error := .objectLimitExceeded, failingObject := some objectIndex }
      let ctx := { ctx with
        visitedObjects := ctx.visitedObjects + 1
        states := ctx.states.set objectIndex .visiting }
      let ctx ← visitEdges graph objectIndex (visit levels)
        (graph.objects.getD objectIndex default).dependencies ctx
      let ctx ← addInitArray sub graph options objectIndex ctx
      return { ctx with states := ctx.states.set objectIndex .complete }

/-- `plan_elf32_init_array_calls` over a subtraction. -/
def planInitArrayCallsWith (rootObject : ℕ) :
    GuestRead Elf32InitPlanFailure (List Elf32InitCall) := do
  reject (options.maxObjects = 0) { error := .invalidOptions }
  reject (rootObject ≥ graph.objects.length)
    { error := .invalidRootObject, failingObject := some rootObject }
  let ctx ← visit sub graph options options.maxObjects.toNat rootObject
    { states := List.replicate graph.objects.length .unseen }
  return ctx.calls

end Visit

/-- `plan_elf32_init_array_calls`. -/
def planElf32InitArrayCalls (graph : Elf32DependencyGraph) (rootObject : ℕ)
    (options : Elf32InitPlanOptions) : GuestRead Elf32InitPlanFailure (List Elf32InitCall) :=
  planInitArrayCallsWith (fun a b => .ok (a - b)) graph options rootObject

end LibA32Android

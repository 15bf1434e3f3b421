/-
Loading a dependency graph (`elf/elf32_dependency_graph.h`,
`elf/elf32_dependency_loader.h`, `elf/linking/elf32_dependency_loader.cpp`).

* `processObject`: load one object, inspect it, acquire its dependencies and
  process those that are new, depth first;
* `rollbackFailure`: unmap everything the failing call has mapped;
* `loadElf32DependencyGraph`: a root with its dependencies, as a new graph.

Memory, provider and graph are passed on in a `GraphLoadContext`; the depth of
the recursion is bounded by `max_depth`, so `processObject` recurses on the
number of levels left.
-/
import LibA32Android.Elf.DependencyResolver
import LibA32Android.Elf.DynamicPlacement

namespace LibA32Android

open Foundations

/-! ### Graphs and results -/

/-- `Elf32DependencyEdge`. -/
structure Elf32DependencyEdge where
  requestedName : ByteString
  targetObject : ℕ
  deriving DecidableEq, Repr

/-- `Elf32LoadedDependencyObject`. -/
structure Elf32LoadedDependencyObject where
  identity : ByteString := []
  image : List UInt8 := []
  load : Elf32LoadResult := {}
  dynamicEntries : List Elf32DynamicEntry := []
  linkerMetadata : Elf32LinkerMetadata := {}
  linkerStrings : Elf32LinkerStrings := {}
  dependencies : List Elf32DependencyEdge := []
  deriving DecidableEq, Repr

instance : Inhabited Elf32LoadedDependencyObject := ⟨{}⟩

/-- `Elf32DependencyGraph`. -/
structure Elf32DependencyGraph where
  objects : List Elf32LoadedDependencyObject := []
  deriving DecidableEq, Repr

/-- The dependency targets of an object, in stored edge order. -/
def dependencyTargets (graph : Elf32DependencyGraph) (objectIndex : ℕ) : List ℕ :=
  (graph.objects.getD objectIndex default).dependencies.map (·.targetObject)

/-- `Elf32DependencyLoadSource`. -/
structure Elf32DependencyLoadSource where
  identity : ByteString
  image : List UInt8
  deriving DecidableEq, Repr

/-- `Elf32DependencyLoadOptions`. -/
structure Elf32DependencyLoadOptions where
  maxObjects : UInt32
  maxDepth : UInt32
  maxDependencyOccurrences : UInt64
  maxImageBytes : UInt64
  maxTotalImageBytes : UInt64
  maxStringBytes : UInt32
  placement : Elf32DynamicPlacementOptions := {}
  deriving DecidableEq, Repr

/-- `Elf32DependencyLoadError`, without `None`. -/
inductive Elf32DependencyLoadError where
  | invalidOptions
  | emptyRootIdentity
  | emptyRootImage
  | imageTooLarge
  | totalImageBytesExceeded
  | tooManyObjects
  | maxDepthExceeded
  | tooManyDependencyOccurrences
  | dependencyResolveFailed
  | identityImageMismatch
  | invalidImage
  | dependencyNotDynamic
  | placementFailed
  | loadFailed
  | dynamicParseFailed
  | linkerMetadataFailed
  | linkerStringFailed
  | rollbackFailed
  | invalidLinkMap
  deriving DecidableEq, Repr

/-- The error part of `Elf32DependencyLoadResult`; a detail that is `None` in
the source is `none`. -/
structure Elf32DependencyLoadFailure where
  error : Elf32DependencyLoadError
  primaryError : Elf32DependencyLoadError
  dependencyError : Option Elf32DependencyResolveError := none
  placementError : Option Elf32DynamicPlacementError := none
  loadError : Option Elf32LoadError := none
  dynamicError : Option Elf32DynamicError := none
  metadataError : Option Elf32LinkerMetadataError := none
  stringError : Option Elf32LinkerStringError := none
  failingIdentity : ByteString := []
  requestedName : ByteString := []
  deriving DecidableEq, Repr

/-- `Elf32DependencyLoadResult`. -/
structure Elf32DependencyLoadResult where
  failure : Option Elf32DependencyLoadFailure := none
  graph : Elf32DependencyGraph := {}
  rootObjectIndex : Option ℕ := none
  reusedExistingRoot : Bool := false
  deriving DecidableEq, Repr

/-- `failure`. -/
def loadFailure (error : Elf32DependencyLoadError) (failingIdentity : ByteString := []) :
    Elf32DependencyLoadFailure :=
  { error := error, primaryError := error, failingIdentity := failingIdentity }

/-! ### One object -/

/-- The options for `load_elf32`: a dynamic image is placed first. -/
def placeObject (memory : MappedGuestMemory) (object : Elf32LoadedDependencyObject)
    (options : Elf32DependencyLoadOptions) (plan : Elf32LoadPlan) :
    Except Elf32DependencyLoadFailure Elf32LoadOptions :=
  match plan.type with
  | .executable => .ok {}
  | .dynamic =>
    match placeElf32Dynamic memory object.image options.placement with
    | .error e => .error { loadFailure .placementFailed object.identity with
        placementError := some e.error
        loadError := e.loadError }
    | .ok dynamicBase => .ok { dynamicBase := some dynamicBase }

/-- `load_object`: the load result, which the caller stores in the object. -/
def loadObject (memory : MappedGuestMemory) (object : Elf32LoadedDependencyObject)
    (options : Elf32DependencyLoadOptions) (requireDynamic : Bool) :
    Except Elf32DependencyLoadFailure Elf32LoadResult × MappedGuestMemory :=
  match planElf32Load memory.pageSize object.image with
  | .error e =>
    (.error { loadFailure .invalidImage object.identity with loadError := some e }, memory)
  | .ok plan =>
    if requireDynamic ∧ plan.type ≠ .dynamic then
      (.error (loadFailure .dependencyNotDynamic object.identity), memory)
    else
      match placeObject memory object options plan with
      | .error failure => (.error failure, memory)
      | .ok loadOptions =>
        match loadElf32 memory object.image loadOptions with
        | (.error e, memory) =>
          (.error { loadFailure .loadFailed object.identity with loadError := some e }, memory)
        | (.ok load, memory) => (.ok load, memory)

/-- `inspect_object`: parse the dynamic array, build metadata and strings; what
was read before a failure stays in the object. -/
def inspectObject (memory : MappedGuestMemory) (object : Elf32LoadedDependencyObject)
    (options : Elf32DependencyLoadOptions) :
    Except Elf32DependencyLoadFailure Unit × Elf32LoadedDependencyObject :=
  match object.load.dynamicSegment with
  | none => (.ok (), object)
  | some segment =>
    match (parseElf32Dynamic segment).under (GuestMemory.reads memory) with
    | .error e =>
      (.error { loadFailure .dynamicParseFailed object.identity with dynamicError := some e },
        object)
    | .ok entries =>
      match (buildElf32LinkerMetadata object.load.loadBias entries).under
          (GuestMemory.reads memory) with
      | .error e =>
        (.error { loadFailure .linkerMetadataFailed object.identity with
            metadataError := some e },
          { object with dynamicEntries := entries })
      | .ok metadata =>
        match (buildElf32LinkerStrings metadata { maxStringBytes := options.maxStringBytes }).under
            (GuestMemory.reads memory) with
        | .error e =>
          (.error { loadFailure .linkerStringFailed object.identity with stringError := some e },
            { object with dynamicEntries := entries, linkerMetadata := metadata })
        | .ok strings =>
          (.ok (), { object with
            dynamicEntries := entries
            linkerMetadata := metadata
            linkerStrings := strings })

/-! ### The context of a load -/

/-- `ObjectState`. -/
inductive ObjectState where
  | discovered
  | loading
  | loaded
  deriving DecidableEq, Repr

/-- `GraphLoadContext`, with the memory and the provider it refers to. -/
structure GraphLoadContext (P : Type) where
  memory : MappedGuestMemory
  provider : P
  graph : Elf32DependencyGraph
  objectIndices : List (ByteString × ℕ) := []
  states : List ObjectState := []
  successfulLoads : List Elf32LoadResult := []
  dependencyOccurrences : ℕ := 0
  totalImageBytes : ℕ := 0

namespace GraphLoadContext

variable {P : Type}

/-- `graph.objects[index]`. -/
def object (ctx : GraphLoadContext P) (index : ℕ) : Elf32LoadedDependencyObject :=
  ctx.graph.objects.getD index default

/-- `states[index]`. -/
def state (ctx : GraphLoadContext P) (index : ℕ) : ObjectState :=
  ctx.states.getD index .loaded

def setState (ctx : GraphLoadContext P) (index : ℕ) (state : ObjectState) :
    GraphLoadContext P :=
  { ctx with states := ctx.states.set index state }

/-- An assignment to `graph.objects[index]`. -/
def setObject (ctx : GraphLoadContext P) (index : ℕ) (object : Elf32LoadedDependencyObject) :
    GraphLoadContext P :=
  { ctx with graph := { objects := ctx.graph.objects.set index object } }

/-- `graph.objects[index].dependencies.push_back(edge)`. -/
def addEdge (ctx : GraphLoadContext P) (index : ℕ) (edge : Elf32DependencyEdge) :
    GraphLoadContext P :=
  ctx.setObject index
    { ctx.object index with dependencies := (ctx.object index).dependencies ++ [edge] }

/-- `object_indices.emplace`: a known key keeps its value. -/
def emplace (objectIndices : List (ByteString × ℕ)) (identity : ByteString) (index : ℕ) :
    List (ByteString × ℕ) :=
  if (objectIndices.lookup identity).isSome then objectIndices
  else objectIndices ++ [(identity, index)]

/-- A new object at the end of the graph. -/
def addObject (ctx : GraphLoadContext P) (identity : ByteString) (image : List UInt8) :
    GraphLoadContext P :=
  { ctx with
    graph := { objects := ctx.graph.objects ++ [{ identity, image }] }
    states := ctx.states ++ [.discovered]
    objectIndices := emplace ctx.objectIndices identity ctx.graph.objects.length }

/-! ### Processing an object -/

/-- Load the object and note the load for a rollback. -/
def loadAt (options : Elf32DependencyLoadOptions) (index : ℕ) (requireDynamic : Bool)
    (ctx : GraphLoadContext P) : Except Elf32DependencyLoadFailure Unit × GraphLoadContext P :=
  match loadObject ctx.memory (ctx.object index) options requireDynamic with
  | (.error failure, memory) => (.error failure, { ctx with memory := memory })
  | (.ok load, memory) =>
    (.ok (), { ctx.setObject index { ctx.object index with load := load } with
      memory := memory
      successfulLoads := ctx.successfulLoads ++ [load] })

/-- Inspect the loaded object. -/
def inspectAt (options : Elf32DependencyLoadOptions) (index : ℕ) (ctx : GraphLoadContext P) :
    Except Elf32DependencyLoadFailure Unit × GraphLoadContext P :=
  let inspected := inspectObject ctx.memory (ctx.object index) options
  (inspected.1, ctx.setObject index inspected.2)

/-- The bytes of the acquired images, within the total that is left. -/
def countAcquired (remainingTotal : ℕ) : List Elf32ResolvedDependency → ℕ → Option ℕ
  | [], acquiredBytes => some acquiredBytes
  | dependency :: dependencies, acquiredBytes =>
    if dependency.image.length > subU64 remainingTotal acquiredBytes then none
    else countAcquired remainingTotal dependencies (acquiredBytes + dependency.image.length)

/-- Acquire the dependencies of the object within the limits. -/
def acquireAt [Elf32DependencyProvider P] (options : Elf32DependencyLoadOptions) (index : ℕ)
    (ctx : GraphLoadContext P) :
    Except Elf32DependencyLoadFailure (List Elf32ResolvedDependency) × GraphLoadContext P :=
  let identity := (ctx.object index).identity
  let strings := (ctx.object index).linkerStrings
  let directSize := strings.needed.length
  if directSize > 0xffffffff then
    (.error (loadFailure .tooManyDependencyOccurrences identity), ctx)
  else if directSize
      > subU64 options.maxDependencyOccurrences.toNat ctx.dependencyOccurrences then
    (.error (loadFailure .tooManyDependencyOccurrences identity), ctx)
  else if directSize = 0 then (.ok [], ctx)
  else
    let remainingTotal := subU64 options.maxTotalImageBytes.toNat ctx.totalImageBytes
    match resolveElf32Dependencies strings ctx.provider
        { maxDependencies := UInt32.ofNat directSize
          maxImageBytes := options.maxImageBytes.toNat
          maxTotalImageBytes := remainingTotal
          requesterIdentity := identity } with
    | (.error e, provider) =>
      (.error { loadFailure .dependencyResolveFailed identity with dependencyError := some e },
        { ctx with provider := provider })
    | (.ok dependencies, provider) =>
      let ctx := { ctx with
        provider := provider
        dependencyOccurrences := ctx.dependencyOccurrences + directSize }
      match countAcquired remainingTotal dependencies 0 with
      | none => (.error (loadFailure .totalImageBytesExceeded identity), ctx)
      | some acquiredBytes =>
        (.ok dependencies, { ctx with totalImageBytes := ctx.totalImageBytes + acquiredBytes })

/-- A nested failure that names no request gets the name of this one. -/
def nameFailure (requestedName : ByteString)
    (nested : Except Elf32DependencyLoadFailure Unit × GraphLoadContext P) :
    Except Elf32DependencyLoadFailure Unit × GraphLoadContext P :=
  match nested with
  | (.error failure, ctx) =>
    (.error (if failure.requestedName = [] then { failure with requestedName := requestedName }
      else failure), ctx)
  | (.ok (), ctx) => (.ok (), ctx)

/-- One round of the dependency loop of the object `index`: a known identity
must have the same image, an unknown one becomes a new object; either way an
edge is added, and an object that was only discovered is processed. -/
def processDependency (options : Elf32DependencyLoadOptions)
    (process : ℕ → GraphLoadContext P →
      Except Elf32DependencyLoadFailure Unit × GraphLoadContext P)
    (index : ℕ) (dependency : Elf32ResolvedDependency) (ctx : GraphLoadContext P) :
    Except Elf32DependencyLoadFailure Unit × GraphLoadContext P :=
  let targetIndex :=
    (ctx.objectIndices.lookup dependency.identity).getD ctx.graph.objects.length
  if targetIndex ≠ ctx.graph.objects.length then
    if (ctx.object targetIndex).image ≠ dependency.image then
      (.error { loadFailure .identityImageMismatch dependency.identity with
        requestedName := dependency.requestedName }, ctx)
    else
      let ctx := ctx.addEdge index ⟨dependency.requestedName, targetIndex⟩
      if ctx.state targetIndex = .discovered then
        nameFailure dependency.requestedName (process targetIndex ctx)
      else (.ok (), ctx)
  else if ctx.graph.objects.length ≥ options.maxObjects.toNat then
    (.error { loadFailure .tooManyObjects dependency.identity with
      requestedName := dependency.requestedName }, ctx)
  else
    nameFailure dependency.requestedName (process ctx.graph.objects.length
      ((ctx.addObject dependency.identity dependency.image).addEdge index
        ⟨dependency.requestedName, ctx.graph.objects.length⟩))

/-- The dependency loop. -/
def processDependencies (options : Elf32DependencyLoadOptions)
    (process : ℕ → GraphLoadContext P →
      Except Elf32DependencyLoadFailure Unit × GraphLoadContext P) (index : ℕ) :
    List Elf32ResolvedDependency → GraphLoadContext P →
      Except Elf32DependencyLoadFailure Unit × GraphLoadContext P
  | [], ctx => (.ok (), ctx)
  | dependency :: dependencies, ctx =>
    andThen (processDependency options process index dependency ctx) fun _ ctx =>
      processDependencies options process index dependencies ctx

/-- `process_object`, with the number of levels left: `max_depth + 1 - depth`. -/
def processObject [Elf32DependencyProvider P] (options : Elf32DependencyLoadOptions) :
    ℕ → ℕ → Bool → GraphLoadContext P →
      Except Elf32DependencyLoadFailure Unit × GraphLoadContext P
  | 0, index, _, ctx =>
    if ctx.state index ≠ .discovered then (.ok (), ctx)
    else (.error (loadFailure .maxDepthExceeded (ctx.object index).identity), ctx)
  | levels + 1, index, requireDynamic, ctx =>
    if ctx.state index ≠ .discovered then (.ok (), ctx)
    else
      andThen ((ctx.setState index .loading).loadAt options index requireDynamic) fun _ ctx =>
        andThen (ctx.inspectAt options index) fun _ ctx =>
          andThen (ctx.acquireAt options index) fun dependencies ctx =>
            andThen (processDependencies options
                (fun target ctx => processObject options levels target true ctx) index
                dependencies ctx)
              fun _ ctx => (.ok (), ctx.setState index .loaded)

end GraphLoadContext

/-! ### Rollback -/

/-- `rollback_load`: unmap the segments, the last one first. -/
def rollbackLoad (load : Elf32LoadResult) (memory : MappedGuestMemory) :
    Bool × MappedGuestMemory :=
  load.segments.foldr (fun segment s =>
    if segment.mappingSize > 2 ^ 64 - 1 then (false, s.2)
    else
      let unmapped := s.2.unmap segment.mappingStart segment.mappingSize
      (unmapped.1 && s.1, unmapped.2)) (true, memory)

/-- The rollback loop of `rollback_failure`, the last load first. -/
def rollbackLoads (loads : List Elf32LoadResult) (memory : MappedGuestMemory) :
    Bool × MappedGuestMemory :=
  loads.foldr (fun load s =>
    let unmapped := rollbackLoad load s.2
    (unmapped.1 && s.1, unmapped.2)) (true, memory)

/-- `rollback_failure`. -/
def rollbackFailure (memory : MappedGuestMemory) (successfulLoads : List Elf32LoadResult)
    (failure : Elf32DependencyLoadFailure) : Elf32DependencyLoadResult × MappedGuestMemory :=
  let rolledBack := rollbackLoads successfulLoads memory
  let failure :=
    if rolledBack.1 then failure
    else { failure with primaryError := failure.error, error := .rollbackFailed }
  ({ failure := some failure }, rolledBack.2)

/-! ### Loading a graph -/

/-- The checks on options and root that both entry points make first. -/
def checkRoot (root : Elf32DependencyLoadSource) (options : Elf32DependencyLoadOptions) :
    Except Elf32DependencyLoadFailure Unit := do
  refuse (options.maxObjects = 0) (loadFailure .invalidOptions root.identity)
  refuse (root.identity = []) (loadFailure .emptyRootIdentity)
  refuse (root.image = []) (loadFailure .emptyRootImage root.identity)
  refuse (root.image.length > options.maxImageBytes.toNat)
    (loadFailure .imageTooLarge root.identity)
  refuse (root.image.length > options.maxTotalImageBytes.toNat)
    (loadFailure .totalImageBytesExceeded root.identity)

/-- `load_elf32_dependency_graph`: result, memory and provider after the call. -/
def loadElf32DependencyGraph {P : Type} [Elf32DependencyProvider P] (memory : MappedGuestMemory)
    (root : Elf32DependencyLoadSource) (provider : P) (options : Elf32DependencyLoadOptions) :
    Elf32DependencyLoadResult × MappedGuestMemory × P :=
  match checkRoot root options with
  | .error failure => ({ failure := some failure }, memory, provider)
  | .ok () =>
    let ctx : GraphLoadContext P :=
      { memory
        provider
        graph := { objects := [{ identity := root.identity, image := root.image }] }
        objectIndices := [(root.identity, 0)]
        states := [.discovered]
        totalImageBytes := root.image.length }
    match GraphLoadContext.processObject options (options.maxDepth.toNat + 1) 0 false ctx with
    | (.error failure, ctx) =>
      let rolledBack := rollbackFailure ctx.memory ctx.successfulLoads failure
      (rolledBack.1, rolledBack.2, ctx.provider)
    | (.ok (), ctx) =>
      ({ graph := ctx.graph, rootObjectIndex := some 0 }, ctx.memory, ctx.provider)

/-- The context in which `load_elf32_dependency_graph` processes its root. -/
def rootContext {P : Type} (memory : MappedGuestMemory) (root : Elf32DependencyLoadSource)
    (provider : P) : GraphLoadContext P where
  memory := memory
  provider := provider
  graph := { objects := [{ identity := root.identity, image := root.image }] }
  objectIndices := [(root.identity, 0)]
  states := [.discovered]
  totalImageBytes := root.image.length

/-- A root that passes the checks is processed. -/
lemma loadElf32DependencyGraph_of_ok {P : Type} [Elf32DependencyProvider P]
    {root : Elf32DependencyLoadSource} {options : Elf32DependencyLoadOptions}
    (h : checkRoot root options = .ok ()) (memory : MappedGuestMemory) (provider : P) :
    loadElf32DependencyGraph memory root provider options
      = match GraphLoadContext.processObject options (options.maxDepth.toNat + 1) 0 false
            (rootContext memory root provider) with
        | (.error failure, ctx) =>
          ((rollbackFailure ctx.memory ctx.successfulLoads failure).1,
            (rollbackFailure ctx.memory ctx.successfulLoads failure).2, ctx.provider)
        | (.ok (), ctx) =>
          ({ graph := ctx.graph, rootObjectIndex := some 0 }, ctx.memory, ctx.provider) := by
  rw [loadElf32DependencyGraph, h]
  rfl

end LibA32Android

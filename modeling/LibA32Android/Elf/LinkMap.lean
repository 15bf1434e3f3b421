/-
Persistent link maps (`elf/elf32_link_map.h`, and `append_elf32_link_map_root`
of `elf/linking/elf32_dependency_loader.cpp`).

* `checkLinkMap`: the validation of the caller's link map, which also builds the
  identity index and the marks of the global scope;
* `recordRoot`, `recordGlobal`: the updates of the root list and of the sorted
  global scope;
* `appendElf32LinkMapRoot`: reuse an object that is there, or load the root with
  its dependencies behind the objects that are there.
-/
import LibA32Android.Elf.DependencyLoader

namespace LibA32Android

open Foundations

/-- `Elf32LinkMapRootPolicy`, an enumeration over `std::uint8_t`.  A caller can pass
one of the values that have no name. -/
inductive Elf32LinkMapRootPolicy where
  | local
  | global
  | unnamed (value : UInt8) (hvalue : 1 < value)
  deriving DecidableEq, Repr

/-- `Local` or `Global`. -/
def Elf32LinkMapRootPolicy.Named (policy : Elf32LinkMapRootPolicy) : Prop :=
  policy = .local ∨ policy = .global

instance (policy : Elf32LinkMapRootPolicy) : Decidable policy.Named :=
  inferInstanceAs (Decidable (_ ∨ _))

/-- `Elf32LinkMapRoot`. -/
structure Elf32LinkMapRoot where
  objectIndex : ℕ
  policy : Elf32LinkMapRootPolicy
  deriving DecidableEq, Repr

/-- `Elf32LinkMap`. -/
structure Elf32LinkMap where
  graph : Elf32DependencyGraph := {}
  roots : List Elf32LinkMapRoot := []
  globalScopeObjects : List ℕ := []
  deriving DecidableEq, Repr

/-! ### Validation -/

/-- One round of the object loop: identities are non-empty and new, edges are
named and in range. -/
def checkObject (objectCount : ℕ) (objectIndices : List (ByteString × ℕ))
    (entry : Elf32LoadedDependencyObject × ℕ) :
    Except Elf32DependencyLoadFailure (List (ByteString × ℕ)) := do
  refuse (entry.1.identity = [] ∨ (objectIndices.lookup entry.1.identity).isSome)
    (loadFailure .invalidLinkMap entry.1.identity)
  refuse (∃ edge ∈ entry.1.dependencies,
      edge.requestedName = [] ∨ edge.targetObject ≥ objectCount)
    (loadFailure .invalidLinkMap entry.1.identity)
  return GraphLoadContext.emplace objectIndices entry.1.identity entry.2

/-- The locals of the root loop: `root_seen` and `required_global`. -/
structure RootMarks where
  rootSeen : List Bool
  requiredGlobal : List Bool

/-- One round of the root loop. -/
def checkRootRecord (objectCount : ℕ) (marks : RootMarks) (record : Elf32LinkMapRoot) :
    Except Elf32DependencyLoadFailure RootMarks := do
  refuse (record.objectIndex ≥ objectCount ∨ marks.rootSeen.getD record.objectIndex false
      ∨ (record.policy ≠ .local ∧ record.policy ≠ .global))
    (loadFailure .invalidLinkMap)
  return { rootSeen := marks.rootSeen.set record.objectIndex true
           requiredGlobal :=
             if record.policy = .global then marks.requiredGlobal.set record.objectIndex true
             else marks.requiredGlobal }

/-- The locals of the scope loop: `global_seen` and the previous entry. -/
structure ScopeMarks where
  globalSeen : List Bool
  previousGlobal : Option ℕ := none

/-- One round of the scope loop. -/
def checkScopeObject (objectCount : ℕ) (requiredGlobal : List Bool) (marks : ScopeMarks)
    (objectIndex : ℕ) : Except Elf32DependencyLoadFailure ScopeMarks := do
  refuse (objectIndex ≥ objectCount ∨ marks.globalSeen.getD objectIndex false
      ∨ !requiredGlobal.getD objectIndex false
      ∨ (∃ previous ∈ marks.previousGlobal, objectIndex ≤ previous))
    (loadFailure .invalidLinkMap)
  return { globalSeen := marks.globalSeen.set objectIndex true
           previousGlobal := some objectIndex }

/-- What the validation leaves for the rest of the call. -/
structure LinkMapIndex where
  objectIndices : List (ByteString × ℕ)
  globalSeen : List Bool

/-- The validation of the link map. -/
def checkLinkMap (linkMap : Elf32LinkMap) :
    Except Elf32DependencyLoadFailure LinkMapIndex := do
  let objects := linkMap.graph.objects
  let objectIndices ← objects.zipIdx.foldlM (checkObject objects.length) []
  let rootMarks ← linkMap.roots.foldlM (checkRootRecord objects.length)
    { rootSeen := List.replicate objects.length false
      requiredGlobal := objects.map (·.linkerMetadata.global) }
  let scopeMarks ← linkMap.globalScopeObjects.foldlM
    (checkScopeObject objects.length rootMarks.requiredGlobal)
    { globalSeen := List.replicate objects.length false }
  (objects.zip (rootMarks.requiredGlobal.zip scopeMarks.globalSeen)).forM fun entry =>
    refuse (entry.2.1 ≠ entry.2.2) (loadFailure .invalidLinkMap entry.1.identity)
  return { objectIndices, globalSeen := scopeMarks.globalSeen }

/-! ### Records -/

/-- `record_root`: a known root may be promoted, a new one is appended. -/
def recordRoot (rootPolicy : Elf32LinkMapRootPolicy) (objectIndex : ℕ) :
    List Elf32LinkMapRoot → List Elf32LinkMapRoot
  | [] => [{ objectIndex := objectIndex, policy := rootPolicy }]
  | record :: records =>
    if record.objectIndex = objectIndex then
      (if rootPolicy = .global then { record with policy := .global } else record) :: records
    else record :: recordRoot rootPolicy objectIndex records

/-- `record_global` on the marks and the scope: an unmarked object is inserted
at its lower bound. -/
def recordGlobal (objectCount : ℕ) (objectIndex : ℕ) (s : List Bool × List ℕ) :
    List Bool × List ℕ :=
  let globalSeen := s.1 ++ List.replicate (objectCount - s.1.length) false
  if globalSeen.getD objectIndex false then (globalSeen, s.2)
  else (globalSeen.set objectIndex true, s.2.orderedInsert (· ≤ ·) objectIndex)

/-! ### Append -/

/-- The append of a root whose identity is known. -/
def reuseRoot (linkMap : Elf32LinkMap) (index : LinkMapIndex) (root : Elf32DependencyLoadSource)
    (rootPolicy : Elf32LinkMapRootPolicy) (rootIndex : ℕ) :
    Elf32DependencyLoadResult × Elf32LinkMap :=
  let object := linkMap.graph.objects.getD rootIndex default
  if object.image ≠ root.image then
    ({ failure := some (loadFailure .identityImageMismatch root.identity) }, linkMap)
  else
    ({ rootObjectIndex := some rootIndex, reusedExistingRoot := true },
      { linkMap with
        roots := recordRoot rootPolicy rootIndex linkMap.roots
        globalScopeObjects :=
          if rootPolicy = .global ∨ object.linkerMetadata.global then
            (recordGlobal linkMap.graph.objects.length rootIndex
              (index.globalSeen, linkMap.globalScopeObjects)).2
          else linkMap.globalScopeObjects })

/-- The context in which a new root is processed. -/
def appendContext {P : Type} (memory : MappedGuestMemory) (linkMap : Elf32LinkMap)
    (index : LinkMapIndex) (root : Elf32DependencyLoadSource) (provider : P) :
    GraphLoadContext P where
  memory := memory
  provider := provider
  graph := { objects := linkMap.graph.objects
    ++ [{ identity := root.identity, image := root.image }] }
  objectIndices :=
    GraphLoadContext.emplace index.objectIndices root.identity linkMap.graph.objects.length
  states := List.replicate linkMap.graph.objects.length .loaded ++ [.discovered]
  totalImageBytes := root.image.length

/-- The link map after a successful load of a new root. -/
def recordAppend (linkMap : Elf32LinkMap) (index : LinkMapIndex)
    (rootPolicy : Elf32LinkMapRootPolicy) (graph : Elf32DependencyGraph) : Elf32LinkMap :=
  let rootIndex := linkMap.graph.objects.length
  let newIndices := List.range' rootIndex (graph.objects.length - rootIndex)
  let globals := newIndices.filter fun objectIndex =>
    (objectIndex = rootIndex ∧ rootPolicy = .global)
      ∨ (graph.objects.getD objectIndex default).linkerMetadata.global
  { graph := graph
    roots := recordRoot rootPolicy rootIndex linkMap.roots
    globalScopeObjects :=
      (globals.foldl (fun s objectIndex => recordGlobal graph.objects.length objectIndex s)
        (index.globalSeen, linkMap.globalScopeObjects)).2 }

/-- `append_elf32_link_map_root`: result, link map, memory and provider after
the call. -/
def appendElf32LinkMapRoot {P : Type} [Elf32DependencyProvider P] (memory : MappedGuestMemory)
    (linkMap : Elf32LinkMap) (root : Elf32DependencyLoadSource) (provider : P)
    (options : Elf32DependencyLoadOptions) (rootPolicy : Elf32LinkMapRootPolicy) :
    Elf32DependencyLoadResult × Elf32LinkMap × MappedGuestMemory × P :=
  match checkRoot root options with
  | .error failure => ({ failure := some failure }, linkMap, memory, provider)
  | .ok () =>
    if linkMap.graph.objects.length > options.maxObjects.toNat then
      ({ failure := some (loadFailure .tooManyObjects root.identity) }, linkMap, memory, provider)
    else
      match checkLinkMap linkMap with
      | .error failure => ({ failure := some failure }, linkMap, memory, provider)
      | .ok index =>
        match index.objectIndices.lookup root.identity with
        | some rootIndex =>
          let reused := reuseRoot linkMap index root rootPolicy rootIndex
          (reused.1, reused.2, memory, provider)
        | none =>
          if linkMap.graph.objects.length ≥ options.maxObjects.toNat then
            ({ failure := some (loadFailure .tooManyObjects root.identity) }, linkMap, memory,
              provider)
          else
            match GraphLoadContext.processObject options (options.maxDepth.toNat + 1)
                linkMap.graph.objects.length false
                (appendContext memory linkMap index root provider) with
            | (.error failure, ctx) =>
              let rolledBack := rollbackFailure ctx.memory ctx.successfulLoads failure
              (rolledBack.1,
                { linkMap with
                  graph := { objects := ctx.graph.objects.take linkMap.graph.objects.length } },
                rolledBack.2, ctx.provider)
            | (.ok (), ctx) =>
              ({ rootObjectIndex := some linkMap.graph.objects.length },
                recordAppend linkMap index rootPolicy ctx.graph, ctx.memory, ctx.provider)

end LibA32Android

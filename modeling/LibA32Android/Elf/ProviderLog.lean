/-
What a provider is asked, and what it answers.

A record of the requests is kept by a provider that passes them on to another one.
Since the loader sees of a provider only its answers, the record changes nothing.

* `Recorded`: a provider with the requests made to it so far;
* `ProviderHom`: a map of provider states that keeps the answers;
* `loadElf32DependencyGraph_map`, `appendElf32LinkMapRoot_map`: the calls do the same
  before and after such a map;
* `graphRequests`, `appendRequests`: the requests of a call.
-/
import LibA32Android.Elf.LinkMap

namespace LibA32Android

open Foundations

/-! ### Records -/

/-- A request to a provider, with its answer. -/
structure ProviderRequest where
  requesterIdentity : ByteString
  requestedName : ByteString
  requestLimit : ℕ
  answer : Except Elf32DependencyProviderError Elf32DependencySource

/-- A provider with the requests made to it. -/
structure Recorded (P : Type) where
  provider : P
  requests : List ProviderRequest := []

section Homs

variable {P Q : Type} [Elf32DependencyProvider P] [Elf32DependencyProvider Q]

instance : Elf32DependencyProvider (Recorded P) where
  resolveFor recorded requesterIdentity requestedName requestLimit :=
    let answered := Elf32DependencyProvider.resolveFor recorded.provider requesterIdentity
      requestedName requestLimit
    (answered.1, ⟨answered.2, recorded.requests
      ++ [⟨requesterIdentity, requestedName, requestLimit, answered.1⟩]⟩)

/-- A map of states under which a provider gives the same answers. -/
def ProviderHom (φ : Q → P) : Prop :=
  ∀ provider requesterIdentity requestedName requestLimit,
    Elf32DependencyProvider.resolveFor (φ provider) requesterIdentity requestedName requestLimit
      = mapState φ (Elf32DependencyProvider.resolveFor provider requesterIdentity requestedName
          requestLimit)

lemma recorded_hom : ProviderHom (Recorded.provider : Recorded P → P) := fun _ _ _ _ => rfl

/-! ### The resolver -/

variable {φ : Q → P}

lemma resolveDependency_map (hφ : ProviderHom φ) (options : Elf32DependencyResolveOptions)
    (requestedName : ByteString) (totalImageBytes : ℕ) (provider : Q) :
    resolveDependency options requestedName totalImageBytes (φ provider)
      = mapState φ (resolveDependency options requestedName totalImageBytes provider) := by
  simp only [resolveDependency]
  split
  · rfl
  split
  · rfl
  split
  · rfl
  rw [hφ]
  rcases Elf32DependencyProvider.resolveFor provider options.requesterIdentity requestedName
    (min options.maxImageBytes (subU64 options.maxTotalImageBytes totalImageBytes))
    with ⟨_ | source, provider'⟩
  · rfl
  · simp only [mapState]
    split
    · rfl
    · rfl

lemma resolveDependencies_map (hφ : ProviderHom φ) (options : Elf32DependencyResolveOptions)
    (names : List ByteString) (totalImageBytes : ℕ) (provider : Q) :
    resolveDependencies options names totalImageBytes (φ provider)
      = mapState φ (resolveDependencies options names totalImageBytes provider) := by
  induction names generalizing totalImageBytes provider with
  | nil => rfl
  | cons requestedName names ih =>
      rw [resolveDependencies, resolveDependencies, resolveDependency_map hφ]
      refine andThen_mapState fun dependency provider' => ?_
      rw [ih]
      exact andThen_mapState fun dependencies provider'' => rfl

lemma resolveElf32Dependencies_map (hφ : ProviderHom φ) (strings : Elf32LinkerStrings)
    (provider : Q) (options : Elf32DependencyResolveOptions) :
    resolveElf32Dependencies strings (φ provider) options
      = mapState φ (resolveElf32Dependencies strings provider options) := by
  rw [resolveElf32Dependencies, resolveElf32Dependencies]
  split
  · rfl
  · exact resolveDependencies_map hφ options strings.needed 0 provider

end Homs

/-! ### The loader -/

namespace GraphLoadContext

variable {P Q : Type} {φ : Q → P}

/-- The context with another representation of the provider. -/
def mapProvider (φ : Q → P) (ctx : GraphLoadContext Q) : GraphLoadContext P where
  memory := ctx.memory
  provider := φ ctx.provider
  graph := ctx.graph
  objectIndices := ctx.objectIndices
  states := ctx.states
  successfulLoads := ctx.successfulLoads
  dependencyOccurrences := ctx.dependencyOccurrences
  totalImageBytes := ctx.totalImageBytes

section Fields

variable (φ) (ctx : GraphLoadContext Q)

lemma mapProvider_object (index : ℕ) : (ctx.mapProvider φ).object index = ctx.object index := rfl

lemma mapProvider_state (index : ℕ) : (ctx.mapProvider φ).state index = ctx.state index := rfl

lemma mapProvider_graph : (ctx.mapProvider φ).graph = ctx.graph := rfl

lemma mapProvider_indices : (ctx.mapProvider φ).objectIndices = ctx.objectIndices := rfl

lemma mapProvider_occurrences :
    (ctx.mapProvider φ).dependencyOccurrences = ctx.dependencyOccurrences := rfl

lemma mapProvider_imageBytes : (ctx.mapProvider φ).totalImageBytes = ctx.totalImageBytes := rfl

lemma mapProvider_provider : (ctx.mapProvider φ).provider = φ ctx.provider := rfl

lemma mapProvider_setState (index : ℕ) (state : ObjectState) :
    (ctx.mapProvider φ).setState index state = (ctx.setState index state).mapProvider φ := rfl

lemma mapProvider_addEdge (index : ℕ) (edge : Elf32DependencyEdge) :
    (ctx.mapProvider φ).addEdge index edge = (ctx.addEdge index edge).mapProvider φ := rfl

lemma mapProvider_addObject (identity : ByteString) (image : List UInt8) :
    (ctx.mapProvider φ).addObject identity image = (ctx.addObject identity image).mapProvider φ :=
  rfl

end Fields

lemma inspectAt_map (options : Elf32DependencyLoadOptions) (index : ℕ)
    (ctx : GraphLoadContext Q) :
    (ctx.mapProvider φ).inspectAt options index
      = mapState (mapProvider φ) (ctx.inspectAt options index) := rfl

lemma loadAt_map (options : Elf32DependencyLoadOptions) (index : ℕ) (requireDynamic : Bool)
    (ctx : GraphLoadContext Q) :
    (ctx.mapProvider φ).loadAt options index requireDynamic
      = mapState (mapProvider φ) (ctx.loadAt options index requireDynamic) := by
  have hload : loadObject (ctx.mapProvider φ).memory ((ctx.mapProvider φ).object index) options
      requireDynamic = loadObject ctx.memory (ctx.object index) options requireDynamic := rfl
  rw [loadAt, loadAt, hload]
  split
  · rfl
  · rfl

lemma nameFailure_map (requestedName : ByteString)
    (nested : Except Elf32DependencyLoadFailure Unit × GraphLoadContext Q) :
    nameFailure requestedName (mapState (mapProvider φ) nested)
      = mapState (mapProvider φ) (nameFailure requestedName nested) := by
  obtain ⟨_ | _, ctx⟩ := nested
  · rfl
  · rfl

section Recursion

variable {process : ℕ → GraphLoadContext Q →
    Except Elf32DependencyLoadFailure Unit × GraphLoadContext Q}
  {process' : ℕ → GraphLoadContext P →
    Except Elf32DependencyLoadFailure Unit × GraphLoadContext P}

lemma processDependency_map
    (hprocess : ∀ target ctx, process' target (mapProvider φ ctx)
      = mapState (mapProvider φ) (process target ctx))
    (options : Elf32DependencyLoadOptions) (index : ℕ) (dependency : Elf32ResolvedDependency)
    (ctx : GraphLoadContext Q) :
    (ctx.mapProvider φ).processDependency options process' index dependency
      = mapState (mapProvider φ) (ctx.processDependency options process index dependency) := by
  simp only [processDependency, mapProvider_object, mapProvider_graph, mapProvider_indices,
    mapProvider_addEdge, mapProvider_addObject, mapProvider_state, hprocess, nameFailure_map]
  repeat' split
  all_goals rfl

lemma processDependencies_map
    (hprocess : ∀ target ctx, process' target (mapProvider φ ctx)
      = mapState (mapProvider φ) (process target ctx))
    (options : Elf32DependencyLoadOptions) (index : ℕ)
    (dependencies : List Elf32ResolvedDependency) (ctx : GraphLoadContext Q) :
    (ctx.mapProvider φ).processDependencies options process' index dependencies
      = mapState (mapProvider φ) (ctx.processDependencies options process index dependencies) := by
  induction dependencies generalizing ctx with
  | nil => rfl
  | cons dependency dependencies ih =>
      rw [processDependencies, processDependencies, processDependency_map hprocess]
      exact andThen_mapState fun _ ctx => ih ctx

end Recursion

variable [Elf32DependencyProvider P] [Elf32DependencyProvider Q]

lemma acquireAt_map (hφ : ProviderHom φ) (options : Elf32DependencyLoadOptions) (index : ℕ)
    (ctx : GraphLoadContext Q) :
    (ctx.mapProvider φ).acquireAt options index
      = mapState (mapProvider φ) (ctx.acquireAt options index) := by
  have hresolve := resolveElf32Dependencies_map hφ (ctx.object index).linkerStrings ctx.provider
  simp only [acquireAt, mapProvider_object, mapProvider_occurrences, mapProvider_imageBytes,
    mapProvider_provider, hresolve]
  split
  · rfl
  split
  · rfl
  split
  · rfl
  generalize resolveElf32Dependencies (ctx.object index).linkerStrings ctx.provider _ = resolved
  obtain ⟨_ | dependencies, provider⟩ := resolved
  · rfl
  · simp only [mapState]
    split
    · rfl
    · rfl

/-- **The recursion sees of a provider only its answers.** -/
theorem processObject_map (hφ : ProviderHom φ) (options : Elf32DependencyLoadOptions)
    (levels index : ℕ) (requireDynamic : Bool) (ctx : GraphLoadContext Q) :
    processObject options levels index requireDynamic (ctx.mapProvider φ)
      = mapState (mapProvider φ) (processObject options levels index requireDynamic ctx) := by
  induction levels generalizing index requireDynamic ctx with
  | zero =>
      rw [processObject, processObject, mapProvider_state]
      split
      · rfl
      · rfl
  | succ levels ih =>
      rw [processObject, processObject, mapProvider_state]
      split
      · rfl
      rw [mapProvider_setState, loadAt_map]
      refine andThen_mapState fun _ ctx => ?_
      rw [inspectAt_map]
      refine andThen_mapState fun _ ctx => ?_
      rw [acquireAt_map hφ]
      refine andThen_mapState fun dependencies ctx => ?_
      rw [processDependencies_map fun target ctx => ih target true ctx]
      exact andThen_mapState fun _ ctx => rfl

end GraphLoadContext

/-! ### The calls -/

/-- The states after a call, with another representation of the provider. -/
def mapResult {P Q : Type} (φ : Q → P) (x : Elf32DependencyLoadResult × MappedGuestMemory × Q) :
    Elf32DependencyLoadResult × MappedGuestMemory × P := (x.1, x.2.1, φ x.2.2)

section Calls

variable {P Q : Type} [Elf32DependencyProvider P] [Elf32DependencyProvider Q] {φ : Q → P}

theorem loadElf32DependencyGraph_map (hφ : ProviderHom φ) (memory : MappedGuestMemory)
    (root : Elf32DependencyLoadSource) (provider : Q) (options : Elf32DependencyLoadOptions) :
    loadElf32DependencyGraph memory root (φ provider) options
      = mapResult φ (loadElf32DependencyGraph memory root provider options) := by
  cases hroot : checkRoot root options with
  | error failure =>
      rw [loadElf32DependencyGraph, loadElf32DependencyGraph, hroot]
      rfl
  | ok _ =>
      have hrun := GraphLoadContext.processObject_map hφ options (options.maxDepth.toNat + 1) 0
        false (rootContext memory root provider)
      change GraphLoadContext.processObject options (options.maxDepth.toNat + 1) 0 false
        (rootContext memory root (φ provider)) = _ at hrun
      rw [loadElf32DependencyGraph_of_ok hroot, loadElf32DependencyGraph_of_ok hroot, hrun]
      generalize GraphLoadContext.processObject options (options.maxDepth.toNat + 1) 0 false
        (rootContext memory root provider) = run
      obtain ⟨_ | _, ctx⟩ := run
      · rfl
      · rfl

theorem appendElf32LinkMapRoot_map (hφ : ProviderHom φ) (memory : MappedGuestMemory)
    (linkMap : Elf32LinkMap) (root : Elf32DependencyLoadSource) (provider : Q)
    (options : Elf32DependencyLoadOptions) (rootPolicy : Elf32LinkMapRootPolicy) :
    appendElf32LinkMapRoot memory linkMap root (φ provider) options rootPolicy
      = ((appendElf32LinkMapRoot memory linkMap root provider options rootPolicy).1,
          (appendElf32LinkMapRoot memory linkMap root provider options rootPolicy).2.1,
          (appendElf32LinkMapRoot memory linkMap root provider options rootPolicy).2.2.1,
          φ (appendElf32LinkMapRoot memory linkMap root provider options rootPolicy).2.2.2) := by
  rw [appendElf32LinkMapRoot, appendElf32LinkMapRoot]
  cases checkRoot root options with
  | error failure => rfl
  | ok _ =>
      simp only
      split
      · rfl
      cases checkLinkMap linkMap with
      | error failure => rfl
      | ok index =>
          simp only
          cases index.objectIndices.lookup root.identity with
          | some rootIndex => rfl
          | none =>
              simp only
              split
              · rfl
              have hrun := GraphLoadContext.processObject_map hφ options
                (options.maxDepth.toNat + 1) linkMap.graph.objects.length false
                (appendContext memory linkMap index root provider)
              change GraphLoadContext.processObject options (options.maxDepth.toNat + 1)
                linkMap.graph.objects.length false
                (appendContext memory linkMap index root (φ provider)) = _ at hrun
              simp only [hrun]
              generalize GraphLoadContext.processObject options (options.maxDepth.toNat + 1)
                linkMap.graph.objects.length false
                (appendContext memory linkMap index root provider) = run
              obtain ⟨_ | _, ctx⟩ := run
              · rfl
              · rfl

/-! ### The requests of a call -/

/-- The requests that `load_elf32_dependency_graph` makes, in order. -/
def graphRequests (memory : MappedGuestMemory) (root : Elf32DependencyLoadSource) (provider : P)
    (options : Elf32DependencyLoadOptions) : List ProviderRequest :=
  (loadElf32DependencyGraph memory root (Recorded.mk provider []) options).2.2.requests

/-- The requests that `append_elf32_link_map_root` makes, in order. -/
def appendRequests (memory : MappedGuestMemory) (linkMap : Elf32LinkMap)
    (root : Elf32DependencyLoadSource) (provider : P) (options : Elf32DependencyLoadOptions)
    (rootPolicy : Elf32LinkMapRootPolicy) : List ProviderRequest :=
  (appendElf32LinkMapRoot memory linkMap root (Recorded.mk provider []) options
    rootPolicy).2.2.2.requests

/-- Keeping a record changes neither result nor memory. -/
lemma loadElf32DependencyGraph_recorded (memory : MappedGuestMemory)
    (root : Elf32DependencyLoadSource) (provider : P) (options : Elf32DependencyLoadOptions) :
    loadElf32DependencyGraph memory root provider options
      = mapResult Recorded.provider
          (loadElf32DependencyGraph memory root (Recorded.mk provider []) options) :=
  loadElf32DependencyGraph_map recorded_hom memory root (Recorded.mk provider []) options

end Calls

end LibA32Android

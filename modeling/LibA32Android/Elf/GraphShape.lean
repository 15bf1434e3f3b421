/-
The shape of a loaded graph.

An object is processed when it is the last one, and everything that it leads to is
appended behind it.  So the objects stand in the order of a depth-first walk, and
what the provider was asked for can be read off the edges in the same order.

* `exchanges`: the requests and answers behind the edges of an object;
* `Grown`: what processing appends to a graph;
* `processDependencies_grown`, `processObject_grown`: the loop and the recursion;
* `GraphShape`, `loadElf32DependencyGraph_shape`: a graph that was loaded.
-/
import LibA32Android.Foundations.DepthFirst
import LibA32Android.Elf.GraphCalls
import LibA32Android.Elf.ProviderLog

namespace LibA32Android

open Foundations MappedGuestMemory GraphLoadContext

/-! ### Sources and exchanges -/

/-- Who asked for which name, and the answer. -/
abbrev Exchange : Type :=
  ByteString × ByteString × Except Elf32DependencyProviderError Elf32DependencySource

def ProviderRequest.exchange (request : ProviderRequest) : Exchange :=
  (request.requesterIdentity, request.requestedName, request.answer)

/-- The name of an edge with the source of its target. -/
def Elf32DependencyEdge.resolved (known : List Elf32DependencySource)
    (edge : Elf32DependencyEdge) : ByteString × Elf32DependencySource :=
  (edge.requestedName, known.getD edge.targetObject ⟨[], []⟩)

/-- The exchanges behind the edges of an object. -/
def exchanges (known : List Elf32DependencySource) (object : Elf32LoadedDependencyObject) :
    List Exchange :=
  (object.dependencies.map (·.resolved known)).map fun resolved =>
    (object.identity, resolved.1, .ok resolved.2)

lemma resolved_of_known {known known' : List Elf32DependencySource} (h : known <+: known')
    {edge : Elf32DependencyEdge} (hedge : edge.targetObject < known.length) :
    edge.resolved known' = edge.resolved known := by
  obtain ⟨rest, rfl⟩ := h
  rw [Elf32DependencyEdge.resolved, Elf32DependencyEdge.resolved,
    List.getD_append _ _ _ _ hedge]

lemma exchanges_of_known {known known' : List Elf32DependencySource} (h : known <+: known')
    {object : Elf32LoadedDependencyObject}
    (hedges : ∀ edge ∈ object.dependencies, edge.targetObject < known.length) :
    exchanges known' object = exchanges known object := by
  rw [exchanges, exchanges]
  congr 1
  exact List.map_congr_left fun edge hedge => resolved_of_known h (hedges edge hedge)

/-- A request of the resolver and the dependency it returns. -/
def Elf32ResolvedDependency.resolved (dependency : Elf32ResolvedDependency) :
    ByteString × Elf32DependencySource :=
  (dependency.requestedName, ⟨dependency.identity, dependency.image⟩)

section Resolver

variable {P : Type} [Elf32DependencyProvider P] {options : Elf32DependencyResolveOptions}
  {recorded recorded' : Recorded P}

lemma resolveDependency_exchange {requestedName : ByteString} {totalImageBytes : ℕ}
    {dependency : Elf32ResolvedDependency}
    (h : resolveDependency options requestedName totalImageBytes recorded
      = (.ok dependency, recorded')) :
    ∃ request, recorded'.requests = recorded.requests ++ [request]
      ∧ request.exchange
        = (options.requesterIdentity, dependency.resolved.1, .ok dependency.resolved.2) := by
  simp only [resolveDependency] at h
  split at h
  · cases h
  split at h
  · cases h
  split at h
  · cases h
  split at h
  · cases h
  rename_i source provider hanswer
  split at h
  · cases h
  cases h
  have hfst := congrArg Prod.fst hanswer
  have hsnd := congrArg Prod.snd hanswer
  refine ⟨_, congrArg Recorded.requests hsnd.symm, ?_⟩
  exact congrArg (fun answer => (options.requesterIdentity, requestedName, answer)) hfst

/-- The requests behind the dependencies of a successful resolution. -/
lemma resolveDependencies_exchanges {names : List ByteString} {totalImageBytes : ℕ}
    {dependencies : List Elf32ResolvedDependency}
    (h : resolveDependencies options names totalImageBytes recorded
      = (.ok dependencies, recorded')) :
    ∃ requests, recorded'.requests = recorded.requests ++ requests
      ∧ requests.map (·.exchange) = (dependencies.map (·.resolved)).map fun resolved =>
          (options.requesterIdentity, resolved.1, .ok resolved.2) := by
  induction names generalizing totalImageBytes recorded dependencies with
  | nil =>
      cases h
      exact ⟨[], (List.append_nil _).symm, rfl⟩
  | cons requestedName names ih =>
      rw [resolveDependencies, andThen_ok_iff] at h
      obtain ⟨dependency, recorded₁, hone, hrest⟩ := h
      rw [andThen_ok_iff] at hrest
      obtain ⟨rest, recorded₂, hrest, hret⟩ := hrest
      cases hret
      obtain ⟨request, hrequest, hexchange⟩ := resolveDependency_exchange hone
      obtain ⟨requests, hrequests, hexchanges⟩ := ih hrest
      refine ⟨request :: requests, ?_, ?_⟩
      · rw [hrequests, hrequest, List.append_assoc, List.singleton_append]
      · rw [List.map_cons, List.map_cons, List.map_cons, hexchange, hexchanges]

end Resolver

/-! ### Steps on the last object -/

namespace GraphLoadContext

section Steps

variable {P : Type} {ctx ctx' : GraphLoadContext P} {options : Elf32DependencyLoadOptions}
  {old mid : List Elf32LoadedDependencyObject} {current : Elf32LoadedDependencyObject}

lemma object_of_eq (h : ctx.graph.objects = old ++ current :: mid) :
    ctx.object old.length = current := by
  rw [object, h]
  simp

lemma setObject_of_eq (h : ctx.graph.objects = old ++ current :: mid)
    (object : Elf32LoadedDependencyObject) :
    (ctx.setObject old.length object).graph.objects = old ++ object :: mid := by
  rw [setObject, h]
  simp

/-- A load fills in the load result of its object. -/
lemma loadAt_of_eq {requireDynamic : Bool} (h : ctx.graph.objects = old ++ current :: mid)
    (hload : ctx.loadAt options old.length requireDynamic = (.ok (), ctx')) :
    ∃ load, ctx'.graph.objects = old ++ { current with load := load } :: mid
      ∧ ctx'.successfulLoads = ctx.successfulLoads ++ [load]
      ∧ ctx'.provider = ctx.provider ∧ ctx'.states = ctx.states
      ∧ (∃ m m' loadOptions, loadElf32 m current.image loadOptions = (.ok load, m'))
      ∧ (requireDynamic → imageType current.image = .dynamic) := by
  rw [loadAt, object_of_eq h] at hload
  split at hload
  · cases hload
  rename_i load memory hobject
  cases hload
  refine ⟨load, setObject_of_eq h _, rfl, rfl, rfl, ?_⟩
  rw [loadObject] at hobject
  split at hobject
  · cases hobject
  rename_i plan hplan
  split at hobject
  · cases hobject
  rename_i hdynamic
  split at hobject
  · cases hobject
  split at hobject
  · cases hobject
  rename_i loadOptions _ load' memory' hrun
  cases hobject
  refine ⟨⟨_, _, _, hrun⟩, fun hrequire => ?_⟩
  rw [← (planElf32Load_ok hplan).1.type]
  by_contra hne
  exact hdynamic ⟨hrequire, hne⟩

lemma inspectAt_of_eq (h : ctx.graph.objects = old ++ current :: mid)
    (hinspect : ctx.inspectAt options old.length = (.ok (), ctx')) :
    ∃ object, ctx'.graph.objects = old ++ object :: mid ∧ object.source = current.source
      ∧ object.load = current.load ∧ object.dependencies = current.dependencies
      ∧ ctx'.successfulLoads = ctx.successfulLoads ∧ ctx'.provider = ctx.provider
      ∧ ctx'.states = ctx.states := by
  obtain ⟨hsource, hload, hdependencies⟩ := inspectObject_kept ctx.memory current options
  rw [inspectAt, object_of_eq h, Prod.mk.injEq] at hinspect
  obtain ⟨-, rfl⟩ := hinspect
  exact ⟨_, setObject_of_eq h _, hsource, hload, hdependencies, rfl, rfl, rfl⟩

end Steps

section Acquire

variable {P : Type} [Elf32DependencyProvider P] {ctx ctx' : GraphLoadContext (Recorded P)}
  {options : Elf32DependencyLoadOptions} {index : ℕ}

/-- Acquisition makes the requests for the names of its object, in order. -/
lemma acquireAt_exchanges {dependencies : List Elf32ResolvedDependency}
    (h : ctx.acquireAt options index = (.ok dependencies, ctx')) :
    ctx'.graph = ctx.graph ∧ ctx'.states = ctx.states
      ∧ ctx'.successfulLoads = ctx.successfulLoads
      ∧ dependencies.map (·.requestedName) = (ctx.object index).linkerStrings.needed
      ∧ ∃ requests, ctx'.provider.requests = ctx.provider.requests ++ requests
        ∧ requests.map (·.exchange) = (dependencies.map (·.resolved)).map fun resolved =>
            ((ctx.object index).identity, resolved.1, .ok resolved.2) := by
  simp only [acquireAt] at h
  split at h
  · cases h
  split at h
  · cases h
  split at h
  · rename_i hnone
    cases h
    exact ⟨rfl, rfl, rfl, (List.eq_nil_of_length_eq_zero hnone).symm, [],
      (List.append_nil _).symm, rfl⟩
  split at h
  · cases h
  rename_i dependencies' provider hresolve
  split at h
  · cases h
  cases h
  refine ⟨rfl, rfl, rfl, (resolveElf32Dependencies_ok hresolve).2, ?_⟩
  rw [resolveElf32Dependencies] at hresolve
  split at hresolve
  · cases hresolve
  exact resolveDependencies_exchanges hresolve

end Acquire

/-! ### What processing appends -/

/-- The targets of the edges of an object. -/
def targets (object : Elf32LoadedDependencyObject) : List ℕ :=
  object.dependencies.map (·.targetObject)

/-- An object whose processing is finished. -/
structure Complete (object : Elf32LoadedDependencyObject) : Prop where
  requested : object.dependencies.map (·.requestedName) = object.linkerStrings.needed
  loaded : ∃ m m' loadOptions, loadElf32 m object.image loadOptions = (.ok object.load, m')

variable {P : Type} {ctx ctx₁ ctx' : GraphLoadContext (Recorded P)} {m₀ : MappedGuestMemory}
  {options : Elf32DependencyLoadOptions} {first : ℕ} {work : List ℕ}
  {old mid added : List Elf32LoadedDependencyObject} {current : Elf32LoadedDependencyObject}

/-- From `ctx` to `ctx'` the objects `added` were appended at `first` on: a walk from
`work` discovers them in their order, and each was loaded, inspected and resolved. -/
structure Grown (ctx ctx' : GraphLoadContext (Recorded P)) (first : ℕ) (work : List ℕ)
    (added : List Elf32LoadedDependencyObject) : Prop where
  settled : .discovered ∉ ctx'.states
  states : ctx'.states.length = ctx'.graph.objects.length
  requests : ∃ requests, ctx'.provider.requests = ctx.provider.requests ++ requests
    ∧ requests.map (·.exchange) = added.flatMap (exchanges (sources ctx'.graph.objects))
  loads : ctx'.successfulLoads = ctx.successfulLoads ++ added.map (·.load)
  complete : ∀ object ∈ added, Complete object
  walk : ∀ succ : ℕ → List ℕ, (List.range' first added.length).map succ = added.map targets →
    ∃ post, DepthFirst succ {i | i < first} work (List.range' first added.length) post

/-- With no work nothing is appended. -/
lemma Grown.refl (hsettled : .discovered ∉ ctx.states)
    (hstates : ctx.states.length = ctx.graph.objects.length) : Grown ctx ctx first [] [] where
  settled := hsettled
  states := hstates
  requests := ⟨[], (List.append_nil _).symm, rfl⟩
  loads := (List.append_nil _).symm
  complete _ hmem := absurd hmem List.not_mem_nil
  walk _ _ := ⟨[], .nil _⟩

/-- Requests and loads are all that is read of the context before. -/
lemma Grown.of_eq (h : Grown ctx₁ ctx' first work added) (hprovider : ctx₁.provider = ctx.provider)
    (hloads : ctx₁.successfulLoads = ctx.successfulLoads) : Grown ctx ctx' first work added where
  settled := h.settled
  states := h.states
  requests := hprovider ▸ h.requests
  loads := hloads ▸ h.loads
  complete := h.complete
  walk := h.walk

/-- Nothing is appended for a target that is there. -/
lemma Grown.skip {target : ℕ} (h : Grown ctx ctx' first work added) (htarget : target < first) :
    Grown ctx ctx' first (target :: work) added where
  settled := h.settled
  states := h.states
  requests := h.requests
  loads := h.loads
  complete := h.complete
  walk succ hsucc := by
    obtain ⟨post, hpost⟩ := h.walk succ hsucc
    exact ⟨post, .skip htarget hpost⟩

lemma range'_map_append {succ : ℕ → List ℕ} {l l' : List Elf32LoadedDependencyObject}
    (h : (List.range' first (l ++ l').length).map succ = (l ++ l').map targets) :
    (List.range' first l.length).map succ = l.map targets
      ∧ (List.range' (first + l.length) l'.length).map succ = l'.map targets := by
  rw [List.length_append, ← List.range'_append_1, List.map_append, List.map_append] at h
  exact List.append_inj h (by simp)

/-- One target, and then the others. -/
lemma Grown.cons {target : ℕ} {added' : List Elf32LoadedDependencyObject}
    (h : Grown ctx ctx₁ first [target] added)
    (h' : Grown ctx₁ ctx' (first + added.length) work added')
    (hgrowing : sources ctx₁.graph.objects <+: sources ctx'.graph.objects)
    (hedges : ∀ object ∈ added, ∀ edge ∈ object.dependencies,
      edge.targetObject < ctx₁.graph.objects.length) :
    Grown ctx ctx' first (target :: work) (added ++ added') where
  settled := h'.settled
  states := h'.states
  requests := by
    obtain ⟨requests, hrequests, hexchanges⟩ := h.requests
    obtain ⟨requests', hrequests', hexchanges'⟩ := h'.requests
    refine ⟨requests ++ requests', by rw [hrequests', hrequests, List.append_assoc], ?_⟩
    rw [List.map_append, List.flatMap_append, hexchanges, hexchanges']
    congr 1
    refine List.flatMap_congr fun object hobject => (exchanges_of_known hgrowing ?_).symm
    intro edge hedge
    rw [sources, List.length_map]
    exact hedges object hobject edge hedge
  loads := by rw [h'.loads, h.loads, List.map_append, List.append_assoc]
  complete object hobject := by
    rcases List.mem_append.mp hobject with hobject | hobject
    · exact h.complete object hobject
    · exact h'.complete object hobject
  walk succ hsucc := by
    obtain ⟨hleft, hright⟩ := range'_map_append hsucc
    obtain ⟨post, hpost⟩ := h.walk succ hleft
    obtain ⟨post', hpost'⟩ := h'.walk succ hright
    have hseen : {i | i < first + added.length}
        = {i | i < first} ∪ {x | x ∈ List.range' first added.length} := by
      ext i
      simp only [Set.mem_ofPred_eq, Set.mem_union, List.mem_range'_1]
      omega
    rw [hseen] at hpost'
    rw [List.length_append, ← List.range'_append_1]
    exact ⟨post ++ post', hpost.cons hpost'⟩

/-- The last object of a context has just been discovered. -/
structure Entering (ctx : GraphLoadContext (Recorded P))
    (old : List Elf32LoadedDependencyObject) (fresh : Elf32LoadedDependencyObject) : Prop where
  objects : ctx.graph.objects = old ++ [fresh]
  states : ∃ settled, ctx.states = settled ++ [.discovered] ∧ settled.length = old.length
    ∧ .discovered ∉ settled
  blank : fresh.dependencies = []

/-- What processing the last object leaves. -/
structure Processed (requireDynamic : Bool) (ctx : GraphLoadContext (Recorded P))
    (old : List Elf32LoadedDependencyObject) (fresh : Elf32LoadedDependencyObject)
    (ctx' : GraphLoadContext (Recorded P)) (head : Elf32LoadedDependencyObject)
    (rest : List Elf32LoadedDependencyObject) : Prop where
  objects : ctx'.graph.objects = old ++ head :: rest
  source : head.source = fresh.source
  grown : Grown ctx ctx' old.length [old.length] (head :: rest)
  headDynamic : requireDynamic → imageType head.image = .dynamic
  restDynamic : ∀ object ∈ rest, imageType object.image = .dynamic

lemma Processed.source_at {requireDynamic : Bool} {fresh head : Elf32LoadedDependencyObject}
    {rest : List Elf32LoadedDependencyObject}
    (h : Processed requireDynamic ctx old fresh ctx' head rest) :
    (sources ctx'.graph.objects).getD old.length ⟨[], []⟩ = fresh.source := by
  rw [h.objects, sources, List.map_append, List.getD_eq_getElem?_getD,
    List.getElem?_append_right (by simp), List.length_map, Nat.sub_self]
  exact h.source

/-- What a dependency loop of the object behind `old` leaves. -/
structure Looped (ctx : GraphLoadContext (Recorded P)) (old : List Elf32LoadedDependencyObject)
    (current : Elf32LoadedDependencyObject) (mid : List Elf32LoadedDependencyObject)
    (dependencies : List Elf32ResolvedDependency) (ctx' : GraphLoadContext (Recorded P))
    (edges : List Elf32DependencyEdge) (added : List Elf32LoadedDependencyObject) : Prop where
  objects : ctx'.graph.objects
    = old ++ { current with dependencies := current.dependencies ++ edges } :: (mid ++ added)
  resolved : edges.map (·.resolved (sources ctx'.graph.objects)) = dependencies.map (·.resolved)
  grown : Grown ctx ctx' ctx.graph.objects.length (edges.map (·.targetObject)) added
  dynamic : ∀ object ∈ added, imageType object.image = .dynamic

/-- An object with one more edge. -/
def withEdge (object : Elf32LoadedDependencyObject) (edge : Elf32DependencyEdge) :
    Elf32LoadedDependencyObject :=
  { object with dependencies := object.dependencies ++ [edge] }

/-- The object appended for a dependency. -/
def discovery (dependency : Elf32ResolvedDependency) : Elf32LoadedDependencyObject :=
  { identity := dependency.identity, image := dependency.image }

lemma Looped.sources_growing {dependencies : List Elf32ResolvedDependency}
    {edges : List Elf32DependencyEdge} (hobjects : ctx.graph.objects = old ++ current :: mid)
    (h : Looped ctx old current mid dependencies ctx' edges added) :
    sources ctx.graph.objects <+: sources ctx'.graph.objects := by
  refine ⟨sources added, ?_⟩
  rw [hobjects, h.objects]
  simp [sources, Elf32LoadedDependencyObject.source]

/-! ### Rounds of the loop -/

lemma state_ne_of_settled (h : .discovered ∉ ctx.states) (i : ℕ) : ctx.state i ≠ .discovered := by
  rw [state, List.getD_eq_getElem?_getD]
  cases hget : ctx.states[i]? with
  | none => decide
  | some state =>
      rintro rfl
      exact h (List.mem_of_getElem? hget)

/-- The source of an object whose identity is in the index. -/
lemma Holds.source_of_lookup {base : List Elf32LoadedDependencyObject} {identity : ByteString}
    {target : ℕ} (h : ctx.Holds m₀ base)
    (hlookup : ctx.objectIndices.lookup identity = some target) :
    target < ctx.graph.objects.length
      ∧ (sources ctx.graph.objects).getD target ⟨[], []⟩
        = ⟨identity, (ctx.object target).image⟩ := by
  rw [h.graph.indices] at hlookup
  have hlt := lookup_identityIndex_lt hlookup
  have hid := lookup_identityIndex_some hlookup
  refine ⟨hlt, ?_⟩
  rw [identities, List.getElem?_map, List.getElem?_eq_getElem hlt, Option.map_some,
    Option.some.injEq] at hid
  rw [sources, object, List.getD_eq_getElem?_getD, List.getElem?_map, List.getD_eq_getElem?_getD,
    List.getElem?_eq_getElem hlt]
  simp [Elf32LoadedDependencyObject.source, hid]

lemma withKnown_objects (h : ctx.graph.objects = old ++ current :: mid)
    (dependency : Elf32ResolvedDependency) (target : ℕ) :
    (ctx.withKnown old.length dependency target).graph.objects
      = old ++ withEdge current ⟨dependency.requestedName, target⟩ :: mid := by
  rw [withKnown, addEdge, object_of_eq h]
  exact setObject_of_eq h _

lemma withNew_objects (h : ctx.graph.objects = old ++ current :: mid)
    (dependency : Elf32ResolvedDependency) :
    (ctx.withNew old.length dependency).graph.objects
      = (old ++ withEdge current ⟨dependency.requestedName, ctx.graph.objects.length⟩ :: mid)
        ++ [discovery dependency] := by
  have hnew : (ctx.addObject dependency.identity dependency.image).graph.objects
      = old ++ current :: (mid ++ [discovery dependency]) := by
    rw [addObject, h, List.append_assoc, List.cons_append]
    rfl
  rw [withNew, addEdge, object_of_eq hnew, setObject_of_eq hnew, List.append_assoc,
    List.cons_append]
  rfl

lemma nameFailure_ok {requestedName : ByteString}
    {nested : Except Elf32DependencyLoadFailure Unit × GraphLoadContext (Recorded P)}
    (h : nameFailure requestedName nested = (.ok (), ctx')) : nested = (.ok (), ctx') := by
  obtain ⟨_ | _, ctx⟩ := nested
  · cases h
  · exact h

section Loop

variable {dependency : Elf32ResolvedDependency} {dependencies : List Elf32ResolvedDependency}
  {edges : List Elf32DependencyEdge}

lemma Looped.nil (hsettled : .discovered ∉ ctx.states)
    (hstates : ctx.states.length = ctx.graph.objects.length)
    (hobjects : ctx.graph.objects = old ++ current :: mid) :
    Looped ctx old current mid [] ctx [] [] where
  objects := by rw [hobjects, List.append_nil, List.append_nil]
  resolved := rfl
  grown := .refl hsettled hstates
  dynamic _ hmem := absurd hmem List.not_mem_nil

/-- A dependency that is there, and then the others. -/
lemma Looped.known {target : ℕ} (hobjects : ctx.graph.objects = old ++ current :: mid)
    (hlt : target < ctx.graph.objects.length)
    (hsource : (sources ctx.graph.objects).getD target ⟨[], []⟩
      = ⟨dependency.identity, dependency.image⟩)
    (h : Looped (ctx.withKnown old.length dependency target) old
      (withEdge current ⟨dependency.requestedName, target⟩) mid dependencies ctx' edges added) :
    Looped ctx old current mid (dependency :: dependencies) ctx'
      (⟨dependency.requestedName, target⟩ :: edges) added := by
  have hobjects₁ := withKnown_objects hobjects dependency target
  have hgrowing := h.sources_growing hobjects₁
  have hsame : sources (ctx.withKnown old.length dependency target).graph.objects
      = sources ctx.graph.objects := by
    rw [hobjects₁, hobjects]
    simp [sources, withEdge, Elf32LoadedDependencyObject.source]
  have hlength : (ctx.withKnown old.length dependency target).graph.objects.length
      = ctx.graph.objects.length := by
    rw [hobjects₁, hobjects]
    simp
  have hgrown := h.grown
  rw [hlength] at hgrown
  rw [hsame] at hgrowing
  refine ⟨?_, ?_, (hgrown.skip hlt).of_eq rfl rfl, h.dynamic⟩
  · rw [h.objects, withEdge, List.append_assoc, List.singleton_append]
  · rw [List.map_cons, List.map_cons, h.resolved,
      resolved_of_known hgrowing (by simpa [sources] using hlt), Elf32DependencyEdge.resolved,
      hsource]
    rfl

/-- A dependency that is appended and processed, and then the others. -/
lemma Looped.new {head : Elf32LoadedDependencyObject} {rest : List Elf32LoadedDependencyObject}
    (hobjects : ctx.graph.objects = old ++ current :: mid)
    (hone : Processed true (ctx.withNew old.length dependency)
      (old ++ withEdge current ⟨dependency.requestedName, ctx.graph.objects.length⟩ :: mid)
      (discovery dependency) ctx₁ head rest)
    (hedges : ∀ object ∈ ctx₁.graph.objects, ∀ edge ∈ object.dependencies,
      edge.targetObject < ctx₁.graph.objects.length)
    (h : Looped ctx₁ old (withEdge current ⟨dependency.requestedName, ctx.graph.objects.length⟩)
      (mid ++ head :: rest) dependencies ctx' edges added) :
    Looped ctx old current mid (dependency :: dependencies) ctx'
      (⟨dependency.requestedName, ctx.graph.objects.length⟩ :: edges)
      (head :: rest ++ added) := by
  have hfirst : (old ++ withEdge current
      ⟨dependency.requestedName, ctx.graph.objects.length⟩ :: mid).length
      = ctx.graph.objects.length := by
    rw [hobjects]
    simp
  have hobjects₁ := hone.objects
  have hgrowing : sources ctx₁.graph.objects <+: sources ctx'.graph.objects :=
    h.sources_growing (by rw [hobjects₁, List.append_assoc, List.cons_append])
  have hlength : ctx₁.graph.objects.length
      = ctx.graph.objects.length + (head :: rest).length := by
    rw [hobjects₁, List.length_append, hfirst]
  have hprocessed := hone.grown
  have hgrown := h.grown
  rw [hfirst] at hprocessed
  rw [hlength] at hgrown
  refine ⟨?_, ?_, ?_, ?_⟩
  · rw [h.objects, withEdge]
    simp
  · have hsource := hone.source_at
    rw [hfirst] at hsource
    rw [List.map_cons, List.map_cons, h.resolved,
      resolved_of_known hgrowing (by simp [sources, hlength]), Elf32DependencyEdge.resolved,
      hsource]
    rfl
  · refine (Grown.cons hprocessed hgrown hgrowing fun object hobject => ?_).of_eq rfl rfl
    exact hedges object (hobjects₁ ▸ List.mem_append_right _ hobject)
  · intro object hobject
    rcases List.mem_append.mp hobject with hobject | hobject
    · rcases List.mem_cons.mp hobject with rfl | hobject
      · exact hone.headDynamic rfl
      · exact hone.restDynamic object hobject
    · exact h.dynamic object hobject

end Loop

/-! ### Objects on the way -/

/-- What the stages before the dependency loop leave of the last object. -/
structure Resolved (requireDynamic : Bool) (ctx : GraphLoadContext (Recorded P))
    (old : List Elf32LoadedDependencyObject) (fresh : Elf32LoadedDependencyObject)
    (ctx' : GraphLoadContext (Recorded P)) (object : Elf32LoadedDependencyObject)
    (dependencies : List Elf32ResolvedDependency) : Prop where
  objects : ctx'.graph.objects = old ++ [object]
  source : object.source = fresh.source
  blank : object.dependencies = []
  states : ∃ settled, ctx'.states = settled ++ [.loading] ∧ settled.length = old.length
    ∧ .discovered ∉ settled
  loads : ctx'.successfulLoads = ctx.successfulLoads ++ [object.load]
  loaded : ∃ m m' loadOptions, loadElf32 m object.image loadOptions = (.ok object.load, m')
  dynamic : requireDynamic → imageType object.image = .dynamic
  needed : dependencies.map (·.requestedName) = object.linkerStrings.needed
  requests : ∃ requests, ctx'.provider.requests = ctx.provider.requests ++ requests
    ∧ requests.map (·.exchange) = (dependencies.map (·.resolved)).map fun resolved =>
        (object.identity, resolved.1, .ok resolved.2)

lemma Entering.state_eq {fresh : Elf32LoadedDependencyObject} (h : Entering ctx old fresh) :
    ctx.state old.length = .discovered := by
  obtain ⟨settled, hstates, hlength, -⟩ := h.states
  rw [state, hstates, ← hlength]
  simp

section Stages

variable {requireDynamic : Bool} {fresh : Elf32LoadedDependencyObject}
  {ctx₂ : GraphLoadContext (Recorded P)} {dependencies : List Elf32ResolvedDependency}
  {object : Elf32LoadedDependencyObject} {edges : List Elf32DependencyEdge}

/-- The last object counts as grown once its loop is done. -/
lemma Resolved.grown (h : Resolved requireDynamic ctx old fresh ctx₁ object dependencies)
    (hlooped : Looped ctx₁ old object [] dependencies ctx₂ edges added) :
    Grown ctx (ctx₂.setState old.length .loaded) old.length [old.length]
      ({ object with dependencies := edges } :: added) := by
  obtain ⟨requests, hrequests, hexchanges⟩ := h.requests
  have hlength : ctx₁.graph.objects.length = old.length + 1 := by simp [h.objects]
  have hgrown := hlooped.grown
  rw [hlength] at hgrown
  obtain ⟨requests', hrequests', hexchanges'⟩ := hgrown.requests
  refine ⟨?_, ?_, ⟨requests ++ requests', ?_, ?_⟩, ?_, ?_, fun succ hsucc => ?_⟩
  · intro hmem
    rcases List.mem_or_eq_of_mem_set hmem with hmem | hmem
    · exact hgrown.settled hmem
    · cases hmem
  · exact List.length_set.trans hgrown.states
  · show ctx₂.provider.requests = _
    rw [hrequests', hrequests, List.append_assoc]
  · rw [List.map_append, hexchanges, hexchanges', ← hlooped.resolved]
    rfl
  · show ctx₂.successfulLoads = _
    rw [hgrown.loads, h.loads, List.append_assoc, List.map_cons]
    rfl
  · refine List.forall_mem_cons.mpr ⟨⟨?_, h.loaded⟩, hgrown.complete⟩
    have hnames := congrArg (List.map Prod.fst) hlooped.resolved
    rw [List.map_map, List.map_map] at hnames
    exact hnames.trans h.needed
  · rw [List.length_cons, List.range'_succ, List.map_cons, List.map_cons,
      List.cons.injEq] at hsucc
    obtain ⟨post, hpost⟩ := hgrown.walk succ hsucc.2
    have hseen : {i | i < old.length + 1} = insert old.length {i | i < old.length} := by
      ext i
      simp only [Set.mem_ofPred_eq, Set.mem_insert_iff]
      omega
    rw [hseen] at hpost
    refine ⟨post ++ [old.length], ?_⟩
    rw [List.length_cons, List.range'_succ,
      ← List.append_nil (old.length :: List.range' (old.length + 1) added.length)]
    refine .visit (fun hlt => absurd hlt (Nat.lt_irrefl _)) ?_ (.nil _)
    rw [hsucc.1]
    exact hpost

lemma Resolved.processed (h : Resolved requireDynamic ctx old fresh ctx₁ object dependencies)
    (hlooped : Looped ctx₁ old object [] dependencies ctx₂ edges added) :
    Processed requireDynamic ctx old fresh (ctx₂.setState old.length .loaded)
      { object with dependencies := edges } added := by
  have hobjects := hlooped.objects
  rw [h.blank, List.nil_append, List.nil_append] at hobjects
  exact ⟨hobjects, h.source, h.grown hlooped, h.dynamic, hlooped.dynamic⟩

end Stages

/-! ### The loop and the recursion -/

variable [Elf32DependencyProvider P]

/-- **The dependency loop** appends what its dependencies lead to. -/
lemma processDependencies_grown
    {process : ℕ → GraphLoadContext (Recorded P) →
      Except Elf32DependencyLoadFailure Unit × GraphLoadContext (Recorded P)}
    (hprocess : ∀ {ctx old fresh ctx'}, ctx.Holds m₀ [] → Entering ctx old fresh →
      process old.length ctx = (.ok (), ctx') →
      ctx'.Holds m₀ [] ∧ ∃ head rest, Processed true ctx old fresh ctx' head rest)
    {dependencies : List Elf32ResolvedDependency} (hok : ∀ d ∈ dependencies, d.Ok)
    (h : ctx.Holds m₀ []) (hsettled : .discovered ∉ ctx.states)
    (hstates : ctx.states.length = ctx.graph.objects.length)
    (hobjects : ctx.graph.objects = old ++ current :: mid)
    (hrun : ctx.processDependencies options process old.length dependencies = (.ok (), ctx')) :
    ∃ edges added, Looped ctx old current mid dependencies ctx' edges added := by
  induction dependencies generalizing ctx current mid with
  | nil =>
      cases hrun
      exact ⟨[], [], .nil hsettled hstates hobjects⟩
  | cons dependency dependencies ih =>
      obtain ⟨hd, hrest⟩ := List.forall_mem_cons.mp hok
      rw [processDependencies, andThen_ok_iff] at hrun
      obtain ⟨_, ctx₁, hone, hloop⟩ := hrun
      have hrule : @ProcessRule (Recorded P) _ options (Holds m₀ []) (Stopped m₀ [])
        (([] : List Elf32LoadedDependencyObject).length ≤ ·) := holds_rule options m₀ []
      have hround := dependencyRound options process old.length dependency ctx
      rw [hone] at hround
      generalize nestedCall options old.length dependency ctx = nested at hround
      generalize hend : ((.ok (), ctx₁) :
        Except Elf32DependencyLoadFailure Unit × GraphLoadContext (Recorded P)) = result at hround
      cases hround with
      | mismatch => cases hend
      | full => cases hend
      | resumed target _ _ _ hstate => exact absurd hstate (state_ne_of_settled hsettled target)
      | reused target hlookup hne himage hstate =>
          cases hend
          obtain ⟨hlt, hsource⟩ := h.source_of_lookup hlookup
          have h₁ := hrule.known h (Nat.zero_le old.length) hd hlookup
          have hobjects₁ := withKnown_objects hobjects dependency target
          have hstates₁ : ctx.states.length
              = (ctx.withKnown old.length dependency target).graph.objects.length := by
            rw [hstates, hobjects₁, hobjects]
            simp
          obtain ⟨edges, added, hlooped⟩ := ih hrest h₁ hsettled hstates₁ hobjects₁ hloop
          exact ⟨_, added, hlooped.known hobjects hlt (himage ▸ hsource)⟩
      | added hlookup hmax =>
          have h₁ := hrule.added h (Nat.zero_le old.length) hd hlookup hmax
          have hfirst : ctx.graph.objects.length = (old ++ withEdge current
              ⟨dependency.requestedName, ctx.graph.objects.length⟩ :: mid).length := by
            rw [hobjects]
            simp
          have hentering : Entering (ctx.withNew old.length dependency)
              (old ++ withEdge current ⟨dependency.requestedName, ctx.graph.objects.length⟩ :: mid)
              (discovery dependency) :=
            ⟨withNew_objects hobjects dependency,
              ⟨ctx.states, rfl, hstates.trans hfirst, hsettled⟩, rfl⟩
          have hnested := nameFailure_ok hend.symm
          rw [hfirst] at hnested
          obtain ⟨h₂, head, rest, hprocessed⟩ := hprocess h₁ hentering hnested
          obtain ⟨edges, added, hlooped⟩ := ih hrest h₂ hprocessed.grown.settled
            hprocessed.grown.states
            (by rw [hprocessed.objects, List.append_assoc, List.cons_append]) hloop
          exact ⟨_, _, hlooped.new hobjects hprocessed fun object hobject edge hedge =>
            (h₂.graph.ok.edges object hobject edge hedge).2⟩

/-- Load, inspection and acquisition of the last object. -/
lemma Entering.resolved {requireDynamic : Bool} {fresh : Elf32LoadedDependencyObject}
    {ctx₂ : GraphLoadContext (Recorded P)} {dependencies : List Elf32ResolvedDependency}
    (hentering : Entering ctx old fresh)
    (hload : (ctx.setState old.length .loading).loadAt options old.length requireDynamic
      = (.ok (), ctx₁))
    (hinspect : ctx₁.inspectAt options old.length = (.ok (), ctx₂))
    (hacquire : ctx₂.acquireAt options old.length = (.ok dependencies, ctx')) :
    ∃ object, Resolved requireDynamic ctx old fresh ctx' object dependencies := by
  have hbegun : (ctx.setState old.length .loading).graph.objects = old ++ fresh :: [] :=
    hentering.objects
  obtain ⟨settled, hstates, hlength, hsettled⟩ := hentering.states
  obtain ⟨load, hobjects₁, hloads₁, hprovider₁, hstates₁, hloaded, hdynamic⟩ :=
    loadAt_of_eq hbegun hload
  obtain ⟨object, hobjects₂, hsource, hload₂, hblank, hloads₂, hprovider₂, hstates₂⟩ :=
    inspectAt_of_eq hobjects₁ hinspect
  obtain ⟨hgraph₃, hstates₃, hloads₃, hneeded, requests, hrequests, hexchanges⟩ :=
    acquireAt_exchanges hacquire
  rw [object_of_eq hobjects₂] at hneeded hexchanges
  have himage : object.image = fresh.image := congrArg Elf32DependencySource.image hsource
  refine ⟨object, hgraph₃ ▸ hobjects₂, hsource, hblank.trans hentering.blank,
    ⟨settled, ?_, hlength, hsettled⟩, ?_, ?_, fun hrequire => ?_, hneeded,
    ⟨requests, ?_, hexchanges⟩⟩
  · rw [hstates₃, hstates₂, hstates₁, setState, hstates, ← hlength]
    simp
  · rw [hloads₃, hloads₂, hloads₁, hload₂]
    rfl
  · rw [himage, hload₂]
    exact hloaded
  · rw [himage]
    exact hdynamic hrequire
  · rw [hrequests, hprovider₂, hprovider₁]
    rfl

/-- **The recursion** appends what an object leads to, behind it. -/
theorem processObject_grown {levels : ℕ} {requireDynamic : Bool}
    {fresh : Elf32LoadedDependencyObject} (h : ctx.Holds m₀ []) (hentering : Entering ctx old fresh)
    (hrun : processObject options levels old.length requireDynamic ctx = (.ok (), ctx')) :
    ctx'.Holds m₀ [] ∧ ∃ head rest, Processed requireDynamic ctx old fresh ctx' head rest := by
  have hstate := hentering.state_eq
  induction levels generalizing requireDynamic ctx old fresh ctx' with
  | zero =>
      rw [processObject, if_neg (by simpa using hstate)] at hrun
      cases hrun
  | succ levels ih =>
      have hleaves := processObject_leaves options (levels + 1) old.length requireDynamic h
      rw [hrun] at hleaves
      refine ⟨hleaves, ?_⟩
      have hrule : @ProcessRule (Recorded P) _ options (Holds m₀ []) (Stopped m₀ [])
        (([] : List Elf32LoadedDependencyObject).length ≤ ·) := holds_rule options m₀ []
      have hindex := hrule.discovered h hstate
      rw [processObject, if_neg (by simpa using hstate), andThen_ok_iff] at hrun
      obtain ⟨_, ctx₁, hload, hrun⟩ := hrun
      rw [andThen_ok_iff] at hrun
      obtain ⟨_, ctx₂, hinspect, hrun⟩ := hrun
      rw [andThen_ok_iff] at hrun
      obtain ⟨dependencies, ctx₃, hacquire, hrun⟩ := hrun
      rw [andThen_ok_iff] at hrun
      obtain ⟨_, ctx₄, hloop, hret⟩ := hrun
      cases hret
      -- the invariant on the way
      have h₁ := hrule.loaded (hrule.begun h hstate) hindex hload
      have h₂ := hrule.inspected h₁ hindex
      rw [hinspect] at h₂
      have h₃ := hrule.acquired h₂ hindex
      rw [hacquire] at h₃
      -- the object on the way
      obtain ⟨object, hresolved⟩ := hentering.resolved hload hinspect hacquire
      obtain ⟨settled, hstates, hlength, hsettled⟩ := hresolved.states
      have hobjects := hresolved.objects
      obtain ⟨edges, added, hlooped⟩ := processDependencies_grown
        (fun h hentering hrun => ih h hentering hrun hentering.state_eq) h₃.2 h₃.1
        (by simpa [hstates] using hsettled) (by simp [hstates, hobjects, hlength]) hobjects hloop
      exact ⟨_, added, hresolved.processed hlooped⟩

end GraphLoadContext

/-! ### Loaded graphs -/

/-- The exchanges behind all edges of a graph: the objects in order, and the edges of
each in order. -/
def graphExchanges (graph : Elf32DependencyGraph) : List Exchange :=
  graph.objects.flatMap fun object => object.dependencies.map fun edge =>
    (object.identity, edge.requestedName,
      .ok (graph.objects.getD edge.targetObject default).source)

/-- The shape of a graph that was loaded for `root`, from the memory before and after
and the requests that were made. -/
structure GraphShape (memory memory' : MappedGuestMemory) (root : Elf32DependencyLoadSource)
    (graph : Elf32DependencyGraph) (requests : List ProviderRequest) : Prop where
  root : ∃ object rest, graph.objects = object :: rest ∧ object.identity = root.identity
    ∧ object.image = root.image
  named : ∀ object ∈ graph.objects, object.identity ≠ []
  distinct : (graph.objects.map (·.identity)).Nodup
  requested : ∀ object ∈ graph.objects,
    object.dependencies.map (·.requestedName) = object.linkerStrings.needed
  targets : ∀ object ∈ graph.objects, ∀ edge ∈ object.dependencies,
    edge.targetObject < graph.objects.length
  /-- The provider was asked once for each edge, and answered with its target. -/
  answered : requests.map (·.exchange) = graphExchanges graph
  reachable : ∀ index < graph.objects.length, Reaches (dependencyTargets graph) 0 index
  order : ∃ post, DepthFirst (dependencyTargets graph) ∅ [0]
    (List.range graph.objects.length) post
  /-- `e_type` is `ET_DYN`. -/
  dynamic : ∀ object ∈ graph.objects.tail, decodeU16Le object.image 16 = 3
  loaded : ∀ object ∈ graph.objects, ∃ m m' loadOptions,
    loadElf32 m object.image loadOptions = (.ok object.load, m')
  mapped : ∀ page, memory'.Mapped page ↔ memory.Mapped page
    ∨ ∃ object ∈ graph.objects, page ∈ memory.rangePages object.load.ranges
  free : ∀ object ∈ graph.objects, ∀ page ∈ memory.rangePages object.load.ranges,
    ¬memory.Mapped page
  disjoint : (graph.objects.flatMap (·.load.ranges)).Pairwise fun r r' =>
    Disjoint (memory.pages r.start r.length) (memory.pages r'.start r'.length)

lemma range_map_getD {α β : Type} (l : List α) (default : α) (f : α → β) :
    (List.range l.length).map (fun i => f (l.getD i default)) = l.map f := by
  refine List.ext_getElem (by simp) fun i h1 h2 => ?_
  have hi : i < l.length := by simpa using h1
  simp [hi]

/-- The exchanges of a graph, by the sources of its objects. -/
lemma graphExchanges_eq {graph : Elf32DependencyGraph}
    (h : ∀ object ∈ graph.objects, ∀ edge ∈ object.dependencies,
      edge.targetObject < graph.objects.length) :
    graphExchanges graph = graph.objects.flatMap (exchanges (sources graph.objects)) := by
  refine List.flatMap_congr fun object hobject => ?_
  rw [exchanges, List.map_map]
  refine List.map_congr_left fun edge hedge => ?_
  have hlt := h object hobject edge hedge
  simp [Elf32DependencyEdge.resolved, sources, hlt]

/-- Processing the root of an empty graph gives a graph of the shape. -/
lemma graphShape_of_processed {P : Type} {memory : MappedGuestMemory}
    {root : Elf32DependencyLoadSource} {provider : P} {ctx : GraphLoadContext (Recorded P)}
    {head : Elf32LoadedDependencyObject} {rest : List Elf32LoadedDependencyObject}
    (h : ctx.Holds memory [])
    (hprocessed : Processed false (rootContext memory root (Recorded.mk provider [])) []
      { identity := root.identity, image := root.image } ctx head rest) :
    GraphShape memory ctx.memory root ctx.graph ctx.provider.requests := by
  obtain ⟨hobjects, hsource, hgrown, -, hdynamic⟩ := hprocessed
  rw [List.nil_append] at hobjects
  rw [← hobjects] at hgrown
  obtain ⟨-, -, ⟨requests, hrequests, hexchanges⟩, hloads, hcomplete, hwalk⟩ := hgrown
  have hranges : loadedRanges ctx.successfulLoads
      = ctx.graph.objects.flatMap (·.load.ranges) := by
    rw [hloads, loadedRanges]
    exact List.flatMap_map _ _ _
  have hacquired := h.acquired
  rw [hranges] at hacquired
  have hedges : ∀ object ∈ ctx.graph.objects, ∀ edge ∈ object.dependencies,
      edge.targetObject < ctx.graph.objects.length :=
    fun object hobject edge hedge => (h.graph.ok.edges object hobject edge hedge).2
  have hpages : ∀ page, page ∈ memory.rangePages (ctx.graph.objects.flatMap (·.load.ranges))
      ↔ ∃ object ∈ ctx.graph.objects, page ∈ memory.rangePages object.load.ranges := by
    intro page
    simp only [mem_rangePages, List.mem_flatMap]
    constructor
    · rintro ⟨r, ⟨object, hobject, hr⟩, hp⟩
      exact ⟨object, hobject, r, hr, hp⟩
    · rintro ⟨object, hobject, r, hr, hp⟩
      exact ⟨r, ⟨object, hobject, hr⟩, hp⟩
  obtain ⟨post, hpost⟩ : ∃ post, DepthFirst (dependencyTargets ctx.graph) ∅ [0]
      (List.range ctx.graph.objects.length) post := by
    have hsucc := range_map_getD ctx.graph.objects default GraphLoadContext.targets
    rw [List.range_eq_range'] at hsucc ⊢
    obtain ⟨post, hpost⟩ := hwalk (dependencyTargets ctx.graph) hsucc
    have hempty : {i | i < ([] : List Elf32LoadedDependencyObject).length} = (∅ : Set ℕ) := by
      ext i
      simp
    rw [hempty] at hpost
    exact ⟨post, hpost⟩
  exact {
    root := ⟨head, rest, hobjects, congrArg Elf32DependencySource.identity hsource,
      congrArg Elf32DependencySource.image hsource⟩
    named := fun object hobject hid => h.graph.ok.named (hid ▸ List.mem_map_of_mem hobject)
    distinct := h.graph.ok.distinct
    requested := fun object hobject => (hcomplete object hobject).requested
    targets := hedges
    answered := by
      rw [graphExchanges_eq hedges, ← hexchanges, hrequests]
      rfl
    reachable := fun index hindex => hpost.mem_iff.mp (List.mem_range.mpr hindex)
    order := ⟨post, hpost⟩
    dynamic := by
      intro object hobject
      rw [hobjects, List.tail_cons] at hobject
      have htype := hdynamic object hobject
      rw [imageType] at htype
      by_contra hne
      rw [if_neg hne] at htype
      cases htype
    loaded := fun object hobject => (hcomplete object hobject).loaded
    mapped := by
      intro page
      rw [← hpages]
      by_cases hp : page ∈ memory.rangePages (ctx.graph.objects.flatMap (·.load.ranges))
      · exact iff_of_true (hacquired.mapped page hp) (.inr hp)
      · rw [hacquired.frame.mapped page hp]
        exact (or_iff_left hp).symm
    free := fun object hobject page hp =>
      hacquired.free page ((hpages page).mpr ⟨object, hobject, hp⟩)
    disjoint := hacquired.disjoint }

/-- **A graph that loads has the shape of its dependencies**, for every memory, root
and limits, and for a provider that answers in any way. -/
theorem loadElf32DependencyGraph_shape {P : Type} [Elf32DependencyProvider P]
    {memory : MappedGuestMemory} {root : Elf32DependencyLoadSource} {provider : P}
    {options : Elf32DependencyLoadOptions}
    (h : (loadElf32DependencyGraph memory root provider options).1.failure = none) :
    (loadElf32DependencyGraph memory root provider options).1.rootObjectIndex = some 0
      ∧ GraphShape memory (loadElf32DependencyGraph memory root provider options).2.1 root
          (loadElf32DependencyGraph memory root provider options).1.graph
          (graphRequests memory root provider options) := by
  rw [loadElf32DependencyGraph_recorded, mapResult] at h ⊢
  rw [graphRequests]
  cases hroot : checkRoot root options with
  | error failure =>
      rw [loadElf32DependencyGraph, hroot] at h
      cases h
  | ok _ =>
      rw [loadElf32DependencyGraph_of_ok hroot] at h ⊢
      have hstart := rootContext_started memory (Recorded.mk provider []) hroot
      rcases hrun : processObject options (options.maxDepth.toNat + 1) 0 false
        (rootContext memory root (Recorded.mk provider [])) with ⟨failure | _, ctx⟩
      · rw [hrun] at h
        cases h
      · have hentering : Entering (rootContext memory root (Recorded.mk provider [])) []
            { identity := root.identity, image := root.image } :=
          ⟨rfl, ⟨[], rfl, rfl, List.not_mem_nil⟩, rfl⟩
        obtain ⟨hholds, head, rest, hprocessed⟩ :=
          processObject_grown hstart.holds hentering hrun
        exact ⟨rfl, graphShape_of_processed hholds hprocessed⟩

/-- A root whose dependency needs itself. -/
theorem loadElf32DependencyGraph_shape_selfNeeding :
    ∃ memory' graph requests, graph.objects.length = 2
      ∧ GraphShape vacantMemory memory' ⟨[97], needyImage⟩ graph requests := by
  have hload : (loadElf32DependencyGraph vacantMemory ⟨[97], needyImage⟩
      (SourceTable.mk [([98], ⟨[98], needyImage⟩)]) wideOptions).1.failure = none := by
    decide +kernel
  have hlength : (loadElf32DependencyGraph vacantMemory ⟨[97], needyImage⟩
      (SourceTable.mk [([98], ⟨[98], needyImage⟩)]) wideOptions).1.graph.objects.length = 2 := by
    decide +kernel
  exact ⟨_, _, _, hlength, (loadElf32DependencyGraph_shape hload).2⟩

end LibA32Android

/-
The invariant of a graph load.

A load runs over the objects `base` that were there before it and a memory `m₀`.
At every point of the recursion

* `GraphInvariant`: the objects of `base` stand unchanged at the front and count
  as loaded, identities are distinct, edges are in range, and the identity index
  lists the objects in order;
* `Acquired`: from `m₀` on exactly the segments of the successful loads have
  been mapped.

`GraphLoadContext.processObject_leaves` carries both through the recursion, for
any provider and any limits; a failing step keeps the second one as far as the
unmap calls of the loader's own rollback succeed.  `processObject_sources` says that
the recursion changes neither identity nor image of an object.
-/
import LibA32Android.Elf.GraphRun

namespace LibA32Android

open Foundations MappedGuestMemory

/-! ### The ranges of a load -/

/-- The ranges a load has mapped. -/
def Elf32LoadResult.ranges (load : Elf32LoadResult) : List MappedRange :=
  load.segments.map fun segment => ⟨segment.mappingStart, segment.mappingSize⟩

/-- The ranges of several loads, in the order of mapping. -/
def loadedRanges (loads : List Elf32LoadResult) : List MappedRange :=
  loads.flatMap (·.ranges)

@[simp] lemma loadedRanges_append_singleton (loads : List Elf32LoadResult)
    (load : Elf32LoadResult) :
    loadedRanges (loads ++ [load]) = loadedRanges loads ++ load.ranges := by
  simp [loadedRanges]

section Load

variable {m m' m₀ : MappedGuestMemory}

lemma loadElf32_acquired {image : List UInt8} {options : Elf32LoadOptions}
    {result : Elf32LoadResult} (h : loadElf32 m image options = (.ok result, m')) :
    Acquired m result.ranges m' := by
  obtain ⟨plan, biased, -, rfl, hloaded⟩ := loadElf32_ok h
  have hranges : biased.result.ranges = biased.plannedSegments.map (·.range) := by
    rw [Elf32LoadResult.ranges, BiasedPlan.result, List.map_map]
    rfl
  rw [hranges]
  exact hloaded.acquired

lemma placeObject_error {object : Elf32LoadedDependencyObject}
    {options : Elf32DependencyLoadOptions} {plan : Elf32LoadPlan}
    {failure : Elf32DependencyLoadFailure}
    (h : placeObject m object options plan = .error failure) :
    failure.error = .placementFailed := by
  rw [placeObject] at h
  split at h
  · cases h
  · split at h
    · cases h
      rfl
    · cases h

/-- One object: its segments are mapped, or the guest sees no change. -/
lemma loadObject_leaves (m : MappedGuestMemory) (object : Elf32LoadedDependencyObject)
    (options : Elf32DependencyLoadOptions) (requireDynamic : Bool) :
    Leaves (fun load m' => Acquired m load.ranges m')
      (fun failure m' => failure.error ≠ .invalidLinkMap ∧ (m.UnmapCallsSucceed → m.SameView m'))
      (loadObject m object options requireDynamic) := by
  rw [loadObject]
  split
  · exact ⟨by simp [loadFailure], fun _ => .refl _ _⟩
  split
  · exact ⟨by simp [loadFailure], fun _ => .refl _ _⟩
  split
  · rename_i failure hplace
    exact ⟨by simp [placeObject_error hplace], fun _ => .refl _ _⟩
  split
  · rename_i hload
    exact ⟨by simp [loadFailure], loadElf32_error hload⟩
  · rename_i hload
    exact loadElf32_acquired hload

end Load

/-! ### Graphs -/

/-- An edge of a graph with `objectCount` objects. -/
def Elf32DependencyEdge.Ok (objectCount : ℕ) (edge : Elf32DependencyEdge) : Prop :=
  edge.requestedName ≠ [] ∧ edge.targetObject < objectCount

lemma Elf32DependencyEdge.Ok.mono {count count' : ℕ} {edge : Elf32DependencyEdge}
    (h : edge.Ok count) (hle : count ≤ count') : edge.Ok count' :=
  ⟨h.1, h.2.trans_le hle⟩

/-- The identities of the objects, in order. -/
def identities (objects : List Elf32LoadedDependencyObject) : List ByteString :=
  objects.map (·.identity)

@[simp] lemma identities_length (objects : List Elf32LoadedDependencyObject) :
    (identities objects).length = objects.length := List.length_map _

@[simp] lemma identities_append (objects objects' : List Elf32LoadedDependencyObject) :
    identities (objects ++ objects') = identities objects ++ identities objects' :=
  List.map_append

/-- Well-formed object lists: identities are non-empty and distinct, edges are
named and in range. -/
structure GraphOk (objects : List Elf32LoadedDependencyObject) : Prop where
  named : [] ∉ identities objects
  distinct : (identities objects).Nodup
  edges : ∀ object ∈ objects, ∀ edge ∈ object.dependencies, edge.Ok objects.length

lemma GraphOk.append_new {objects : List Elf32LoadedDependencyObject} (h : GraphOk objects)
    {identity : ByteString} {image : List UInt8} (hne : identity ≠ [])
    (hnew : identity ∉ identities objects) :
    GraphOk (objects ++ [{ identity := identity, image := image }]) := by
  refine ⟨?_, ?_, ?_⟩
  · rw [identities_append, List.mem_append, not_or]
    exact ⟨h.named, by simpa [identities] using hne.symm⟩
  · rw [identities_append, List.nodup_append]
    refine ⟨h.distinct, List.nodup_singleton _, ?_⟩
    rintro a ha b hb rfl
    exact hnew (by rwa [show a = identity by simpa [identities] using hb] at ha)
  · intro object hmem edge hedge
    rcases List.mem_append.mp hmem with hmem | hmem
    · exact (h.edges object hmem edge hedge).mono (by simp)
    · rw [List.mem_singleton.mp hmem] at hedge
      exact absurd hedge List.not_mem_nil

/-- An object of the graph is replaced by one with the same identity. -/
lemma GraphOk.set {objects : List Elf32LoadedDependencyObject} (h : GraphOk objects) {index : ℕ}
    {object : Elf32LoadedDependencyObject} (hid : identities (objects.set index object)
      = identities objects) (hedges : ∀ edge ∈ object.dependencies, edge.Ok objects.length) :
    GraphOk (objects.set index object) := by
  refine ⟨hid ▸ h.named, hid ▸ h.distinct, ?_⟩
  rw [List.length_set]
  intro o hmem
  rcases List.mem_or_eq_of_mem_set hmem with hmem | rfl
  · exact h.edges o hmem
  · exact hedges

/-- A projection does not see an entry being replaced by one that it maps alike. -/
lemma map_set_of_eq {α β : Type} [Inhabited α] {f : α → β} {l : List α} {i : ℕ} {a : α}
    (h : f a = f (l.getD i default)) : (l.set i a).map f = l.map f := by
  rw [List.map_set, h]
  refine List.ext_getElem? fun j => ?_
  rw [List.getElem?_set, List.length_map]
  split
  · rename_i hij
    subst hij
    split
    · rename_i hlt
      simp [hlt]
    · rename_i hge
      simp [List.getElem?_eq_none (not_lt.mp hge)]
  · rfl

lemma identities_set {objects : List Elf32LoadedDependencyObject} {index : ℕ}
    {object : Elf32LoadedDependencyObject}
    (hid : object.identity = (objects.getD index default).identity) :
    identities (objects.set index object) = identities objects :=
  map_set_of_eq hid

/-- What a provider answers for an object. -/
def Elf32LoadedDependencyObject.source (object : Elf32LoadedDependencyObject) :
    Elf32DependencySource := ⟨object.identity, object.image⟩

/-- The sources of the objects, in order. -/
def sources (objects : List Elf32LoadedDependencyObject) : List Elf32DependencySource :=
  objects.map (·.source)

lemma sources_getElem? {objects : List Elf32LoadedDependencyObject} {index : ℕ}
    {source : Elf32DependencySource} : (sources objects)[index]? = some source
      ↔ ∃ object, objects[index]? = some object ∧ object.source = source := by
  rw [sources, List.getElem?_map, Option.map_eq_some_iff]

/-! ### The identity index -/

/-- The index that lists the objects in order. -/
def identityIndex (objects : List Elf32LoadedDependencyObject) : List (ByteString × ℕ) :=
  (identities objects).zipIdx

lemma mem_identityIndex {objects : List Elf32LoadedDependencyObject} {identity : ByteString}
    {index : ℕ} : (identity, index) ∈ identityIndex objects
      ↔ (identities objects)[index]? = some identity := by
  rw [identityIndex, List.mk_mem_zipIdx_iff_getElem?]

lemma lookup_identityIndex_some {objects : List Elf32LoadedDependencyObject}
    {identity : ByteString} {index : ℕ}
    (h : (identityIndex objects).lookup identity = some index) :
    (identities objects)[index]? = some identity := by
  rw [List.lookup_eq_some_iff] at h
  obtain ⟨l₁, l₂, hl, -⟩ := h
  exact mem_identityIndex.mp (hl ▸ List.mem_append_right _ List.mem_cons_self)

lemma lookup_identityIndex_lt {objects : List Elf32LoadedDependencyObject}
    {identity : ByteString} {index : ℕ}
    (h : (identityIndex objects).lookup identity = some index) : index < objects.length := by
  obtain ⟨hlt, -⟩ := List.getElem?_eq_some_iff.mp (lookup_identityIndex_some h)
  simpa using hlt

lemma lookup_identityIndex_none {objects : List Elf32LoadedDependencyObject}
    {identity : ByteString} (h : (identityIndex objects).lookup identity = none) :
    identity ∉ identities objects := by
  intro hmem
  obtain ⟨index, hindex⟩ := List.mem_iff_getElem?.mp hmem
  rw [List.lookup_eq_none_iff] at h
  simpa using h _ (mem_identityIndex.mpr hindex)

/-- A new identity goes to the end of the index. -/
lemma emplace_identityIndex {objects : List Elf32LoadedDependencyObject} {identity : ByteString}
    (image : List UInt8) (h : (identityIndex objects).lookup identity = none) :
    GraphLoadContext.emplace (identityIndex objects) identity objects.length
      = identityIndex (objects ++ [{ identity := identity, image := image }]) := by
  rw [GraphLoadContext.emplace, h, identityIndex, identityIndex, identities_append,
    List.zipIdx_append]
  simp [identities]

/-! ### The invariant -/

/-- The graph part of the invariant, over the objects `base` that were there
before the load. -/
structure GraphInvariant (base objects : List Elf32LoadedDependencyObject)
    (states : List ObjectState) (objectIndices : List (ByteString × ℕ)) : Prop where
  kept : base <+: objects
  root : base.length < objects.length
  settled : List.replicate base.length .loaded <+: states
  indices : objectIndices = identityIndex objects
  ok : GraphOk objects

namespace GraphLoadContext

variable {P : Type} {m₀ : MappedGuestMemory} {base : List Elf32LoadedDependencyObject}
  {ctx : GraphLoadContext P} {index : ℕ} {options : Elf32DependencyLoadOptions}

/-- The graph of a context satisfies the invariant. -/
def GraphHolds (base : List Elf32LoadedDependencyObject) (ctx : GraphLoadContext P) : Prop :=
  GraphInvariant base ctx.graph.objects ctx.states ctx.objectIndices

/-- The invariant between two steps. -/
structure Holds (m₀ : MappedGuestMemory) (base : List Elf32LoadedDependencyObject)
    (ctx : GraphLoadContext P) : Prop where
  graph : ctx.GraphHolds base
  acquired : Acquired m₀ (loadedRanges ctx.successfulLoads) ctx.memory

/-- What a failing step leaves. -/
structure Failed (m₀ : MappedGuestMemory) (base : List Elf32LoadedDependencyObject)
    (failure : Elf32DependencyLoadFailure) (ctx : GraphLoadContext P) : Prop where
  error : failure.error ≠ .invalidLinkMap
  graph : ctx.GraphHolds base
  acquired : m₀.UnmapCallsSucceed →
    Acquired m₀ (loadedRanges ctx.successfulLoads) ctx.memory

/-- What a step other than a load leaves when it fails: the invariant, and an error
that is none of those of the calls around the recursion. -/
structure Stopped (m₀ : MappedGuestMemory) (base : List Elf32LoadedDependencyObject)
    (failure : Elf32DependencyLoadFailure) (ctx : GraphLoadContext P) : Prop where
  holds : ctx.Holds m₀ base
  error : failure.error ≠ .invalidLinkMap ∧ failure.error ≠ .rollbackFailed

lemma Stopped.failed {failure : Elf32DependencyLoadFailure} (h : Stopped m₀ base failure ctx) :
    Failed m₀ base failure ctx :=
  ⟨h.error.1, h.holds.graph, fun _ => h.holds.acquired⟩

/-! ### Updates of the graph -/

/-- Objects of `base` are never in the discovered state. -/
lemma GraphHolds.base_le (h : ctx.GraphHolds base) (hstate : ctx.state index = .discovered) :
    base.length ≤ index := by
  by_contra hlt
  rw [not_le] at hlt
  obtain ⟨rest, hrest⟩ := h.settled
  rw [state, ← hrest, List.getD_eq_getElem?_getD, List.getElem?_append_left (by simpa using hlt)]
    at hstate
  simp [hlt] at hstate

lemma prefix_set {α : Type} {l l' : List α} (h : l <+: l') {i : ℕ} (hi : l.length ≤ i) (a : α) :
    l <+: l'.set i a := by
  obtain ⟨rest, rfl⟩ := h
  rw [List.set_append_right _ _ hi]
  exact List.prefix_append _ _

lemma GraphHolds.setState (h : ctx.GraphHolds base) (hindex : base.length ≤ index)
    (state : ObjectState) : (ctx.setState index state).GraphHolds base :=
  ⟨h.kept, h.root, prefix_set h.settled (by simpa using hindex) state, h.indices, h.ok⟩

/-- Only objects of this load are replaced, and by ones of the same identity. -/
lemma GraphHolds.setObject {object : Elf32LoadedDependencyObject} (h : ctx.GraphHolds base)
    (hindex : base.length ≤ index) (hid : object.identity = (ctx.object index).identity)
    (hedges : ∀ edge ∈ object.dependencies, edge.Ok ctx.graph.objects.length) :
    (ctx.setObject index object).GraphHolds base := by
  have hids : identities (ctx.graph.objects.set index object) = identities ctx.graph.objects :=
    identities_set hid
  refine ⟨prefix_set h.kept hindex object, ?_, h.settled, ?_, h.ok.set hids hedges⟩
  · exact h.root.trans_eq List.length_set.symm
  · exact h.indices.trans (congrArg List.zipIdx hids.symm)

/-- The edges an object of the graph has. -/
lemma GraphHolds.object_edges (h : ctx.GraphHolds base) :
    ∀ edge ∈ (ctx.object index).dependencies, edge.Ok ctx.graph.objects.length := by
  rw [object, List.getD_eq_getElem?_getD]
  cases hget : ctx.graph.objects[index]? with
  | none => exact fun edge hedge => absurd hedge List.not_mem_nil
  | some object => exact h.ok.edges object (List.mem_of_getElem? hget)

lemma GraphHolds.addEdge {edge : Elf32DependencyEdge} (h : ctx.GraphHolds base)
    (hindex : base.length ≤ index) (hedge : edge.Ok ctx.graph.objects.length) :
    (ctx.addEdge index edge).GraphHolds base := by
  refine h.setObject hindex rfl fun e he => ?_
  rcases List.mem_append.mp he with he | he
  · exact h.object_edges e he
  · rwa [List.mem_singleton.mp he]

lemma GraphHolds.addObject {identity : ByteString} (h : ctx.GraphHolds base)
    (hne : identity ≠ []) (hnew : ctx.objectIndices.lookup identity = none)
    (image : List UInt8) : (ctx.addObject identity image).GraphHolds base := by
  rw [h.indices] at hnew
  refine ⟨h.kept.trans (List.prefix_append _ _), ?_, h.settled.trans (List.prefix_append _ _), ?_,
    h.ok.append_new hne (lookup_identityIndex_none hnew)⟩
  · exact h.root.trans (by simp [GraphLoadContext.addObject])
  · change emplace ctx.objectIndices identity ctx.graph.objects.length = _
    rw [h.indices]
    exact emplace_identityIndex image hnew

/-! ### The steps of a load -/

/-- The postcondition of a step: the invariant, or what a failing step leaves. -/
abbrev Keeps (m₀ : MappedGuestMemory) (base : List Elf32LoadedDependencyObject)
    (x : Except Elf32DependencyLoadFailure Unit × GraphLoadContext P) : Prop :=
  Leaves (fun _ => Holds m₀ base) (Failed m₀ base) x

lemma Holds.loadAt_failed {ctx' : GraphLoadContext P} {requireDynamic : Bool}
    {failure : Elf32DependencyLoadFailure} (h : ctx.Holds m₀ base)
    (hload : ctx.loadAt options index requireDynamic = (.error failure, ctx')) :
    Failed m₀ base failure ctx' := by
  have hleaves := loadObject_leaves ctx.memory (ctx.object index) options requireDynamic
  rw [GraphLoadContext.loadAt] at hload
  split at hload
  · rename_i failure memory heq
    cases hload
    rw [heq] at hleaves
    refine ⟨hleaves.1, h.graph, fun hhost => h.acquired.keep_of_sameView (hleaves.2 ?_)⟩
    rwa [UnmapCallsSucceed, h.acquired.frame.host]
  · cases hload

lemma Holds.loadAt_ok {ctx' : GraphLoadContext P} {requireDynamic : Bool} (h : ctx.Holds m₀ base)
    (hindex : base.length ≤ index)
    (hload : ctx.loadAt options index requireDynamic = (.ok (), ctx')) : ctx'.Holds m₀ base := by
  have hleaves := loadObject_leaves ctx.memory (ctx.object index) options requireDynamic
  rw [GraphLoadContext.loadAt] at hload
  split at hload
  · cases hload
  · rename_i load memory heq
    cases hload
    rw [heq] at hleaves
    refine ⟨h.graph.setObject hindex rfl h.graph.object_edges, ?_⟩
    rw [loadedRanges_append_singleton]
    exact h.acquired.append hleaves

lemma inspectObject_leaves (m : MappedGuestMemory) (object : Elf32LoadedDependencyObject)
    (options : Elf32DependencyLoadOptions) :
    (inspectObject m object options).2.identity = object.identity
      ∧ (inspectObject m object options).2.dependencies = object.dependencies
      ∧ ∀ failure, (inspectObject m object options).1 = .error failure →
          failure.error ≠ .invalidLinkMap ∧ failure.error ≠ .rollbackFailed := by
  rw [inspectObject]
  repeat' split
  all_goals
    refine ⟨rfl, rfl, fun failure h => ?_⟩
    cases h
    try simp [loadFailure]

lemma Holds.inspectAt (h : ctx.Holds m₀ base) (hindex : base.length ≤ index) :
    Leaves (fun _ => Holds m₀ base) (Stopped m₀ base) (ctx.inspectAt options index) := by
  obtain ⟨hid, hdependencies, herror⟩ :=
    inspectObject_leaves ctx.memory (ctx.object index) options
  have hgraph := h.graph.setObject hindex hid (hdependencies ▸ h.graph.object_edges)
  rw [GraphLoadContext.inspectAt]
  cases hresult : (inspectObject ctx.memory (ctx.object index) options).1 with
  | error failure => exact ⟨⟨hgraph, h.acquired⟩, herror failure hresult⟩
  | ok _ => exact ⟨hgraph, h.acquired⟩

/-- The context with another provider and other counters. -/
def Recounted (ctx ctx' : GraphLoadContext P) : Prop :=
  ∃ provider dependencyOccurrences totalImageBytes,
    ctx' = { ctx with provider, dependencyOccurrences, totalImageBytes }

lemma Holds.recounted {ctx' : GraphLoadContext P} (h : ctx.Holds m₀ base)
    (hctx : Recounted ctx ctx') : ctx'.Holds m₀ base := by
  obtain ⟨provider, dependencyOccurrences, totalImageBytes, rfl⟩ := hctx
  exact ⟨h.graph, h.acquired⟩

/-- Acquisition leaves memory and graph alone; what it returns is well formed. -/
lemma acquireAt_leaves [Elf32DependencyProvider P] :
    Leaves (fun dependencies ctx' => Recounted ctx ctx' ∧ ∀ d ∈ dependencies, d.Ok)
      (fun failure ctx' => Recounted ctx ctx'
        ∧ failure.error ≠ .invalidLinkMap ∧ failure.error ≠ .rollbackFailed)
      (ctx.acquireAt options index) := by
  simp only [GraphLoadContext.acquireAt]
  split
  · exact ⟨⟨_, _, _, rfl⟩, by simp [loadFailure]⟩
  split
  · exact ⟨⟨_, _, _, rfl⟩, by simp [loadFailure]⟩
  split
  · exact ⟨⟨_, _, _, rfl⟩, fun _ hd => absurd hd List.not_mem_nil⟩
  split
  · exact ⟨⟨_, _, _, rfl⟩, by simp [loadFailure]⟩
  rename_i dependencies provider hresolve
  split
  · exact ⟨⟨_, _, _, rfl⟩, by simp [loadFailure]⟩
  · exact ⟨⟨_, _, _, rfl⟩, (resolveElf32Dependencies_ok hresolve).1⟩

/-- The steps of a load keep the invariant. -/
lemma holds_rule [Elf32DependencyProvider P] (options : Elf32DependencyLoadOptions)
    (m₀ : MappedGuestMemory) (base : List Elf32LoadedDependencyObject) :
    @ProcessRule P _ options (Holds m₀ base) (Stopped m₀ base) (base.length ≤ ·) where
  named h := ⟨h.holds, h.error⟩
  discovered h hstate := h.graph.base_le hstate
  tooDeep h _ := ⟨h, by simp [loadFailure]⟩
  begun h hstate := ⟨h.graph.setState (h.graph.base_le hstate) _, h.acquired⟩
  ended h hindex := ⟨h.graph.setState hindex _, h.acquired⟩
  loaded h hindex hload := h.loadAt_ok hindex hload
  inspected h hindex := h.inspectAt hindex
  acquired h _ := acquireAt_leaves.mono (fun _ _ hleaves => ⟨h.recounted hleaves.1, hleaves.2⟩)
    fun _ _ hleaves => ⟨h.recounted hleaves.1, hleaves.2⟩
  mismatched h := ⟨h, by simp [loadFailure]⟩
  full h := ⟨h, by simp [loadFailure]⟩
  known h hindex hok hlookup :=
    ⟨h.graph.addEdge hindex ⟨hok.1, lookup_identityIndex_lt (h.graph.indices ▸ hlookup)⟩,
      h.acquired⟩
  added {ctx index dependency} h hindex hok hlookup _ := by
    -- an identity of the index names an object, so the default means there is none
    have hnew : ctx.objectIndices.lookup dependency.identity = none := by
      cases hsome : ctx.objectIndices.lookup dependency.identity with
      | none => rfl
      | some target =>
          rw [hsome, Option.getD_some] at hlookup
          exact absurd hlookup (lookup_identityIndex_lt (h.graph.indices ▸ hsome)).ne
    refine ⟨(h.graph.addObject hok.2.1 hnew dependency.image).addEdge hindex ⟨hok.1, ?_⟩,
      h.acquired⟩
    simp [GraphLoadContext.addObject]

/-- **The recursion keeps the invariant**, at any depth. -/
theorem processObject_leaves [Elf32DependencyProvider P] (options : Elf32DependencyLoadOptions)
    (levels index : ℕ) (requireDynamic : Bool) (h : ctx.Holds m₀ base) :
    Keeps m₀ base (processObject options levels index requireDynamic ctx) := by
  have hrun := processObject_rule (holds_rule options m₀ base) levels 0 index requireDynamic h
  refine hrun.leaves.mono (fun _ _ h => h) ?_
  rintro failure ctx' (hstopped | ⟨moment, hm, requireDynamic', failure', -, hload, herror⟩)
  · exact hstopped.failed
  · have hkeeps := (hrun.moments moment hm).loadAt_failed hload
    exact ⟨herror ▸ hkeeps.error, hkeeps.graph, hkeeps.acquired⟩

/-! ### Sources -/

lemma inspectObject_kept (m : MappedGuestMemory) (object : Elf32LoadedDependencyObject)
    (options : Elf32DependencyLoadOptions) :
    (inspectObject m object options).2.source = object.source
      ∧ (inspectObject m object options).2.load = object.load
      ∧ (inspectObject m object options).2.dependencies = object.dependencies := by
  rw [inspectObject]
  repeat' split
  all_goals exact ⟨rfl, rfl, rfl⟩

lemma sources_setObject {object : Elf32LoadedDependencyObject}
    (h : object.source = (ctx.object index).source) :
    sources (ctx.setObject index object).graph.objects = sources ctx.graph.objects :=
  map_set_of_eq h

lemma sources_loadAt {ctx' : GraphLoadContext P} {requireDynamic : Bool}
    (hload : ctx.loadAt options index requireDynamic = (.ok (), ctx')) :
    sources ctx'.graph.objects = sources ctx.graph.objects := by
  rw [GraphLoadContext.loadAt] at hload
  split at hload
  · cases hload
  · cases hload
    exact sources_setObject rfl

lemma sources_inspectAt :
    sources (ctx.inspectAt options index).2.graph.objects = sources ctx.graph.objects :=
  sources_setObject (inspectObject_kept ctx.memory (ctx.object index) options).1

lemma sources_addEdge {edge : Elf32DependencyEdge} :
    sources (ctx.addEdge index edge).graph.objects = sources ctx.graph.objects :=
  sources_setObject rfl

/-- The sources of the objects that are there stay. -/
lemma sources_rule [Elf32DependencyProvider P] (options : Elf32DependencyLoadOptions)
    (known : List Elf32DependencySource) :
    @ProcessRule P _ options (fun ctx => known <+: sources ctx.graph.objects) (fun _ _ => True)
      (fun _ => True) where
  named _ := trivial
  discovered _ _ := trivial
  tooDeep _ _ := trivial
  begun h _ := h
  ended h _ := h
  loaded h _ hload := (sources_loadAt hload).symm ▸ h
  inspected {ctx index} h _ := by
    have hkept : known <+: sources (ctx.inspectAt options index).2.graph.objects :=
      sources_inspectAt.symm ▸ h
    generalize ctx.inspectAt options index = inspected at hkept
    obtain ⟨_ | _, ctx'⟩ := inspected
    · exact trivial
    · exact hkept
  acquired {ctx index} h _ := by
    refine acquireAt_leaves.mono (fun dependencies ctx' hleaves => ?_) fun _ _ _ => trivial
    obtain ⟨⟨_, _, _, rfl⟩, hok⟩ := hleaves
    exact ⟨h, hok⟩
  mismatched _ := trivial
  full _ := trivial
  known h _ _ _ := sources_addEdge.symm ▸ h
  added {ctx index dependency} h _ _ _ _ := by
    have hadded : sources (ctx.addObject dependency.identity dependency.image).graph.objects
        = sources ctx.graph.objects ++ [⟨dependency.identity, dependency.image⟩] :=
      List.map_append
    rw [withNew, sources_addEdge, hadded]
    exact h.trans (List.prefix_append _ _)

/-- **The recursion changes no source** of an object that is there. -/
theorem processObject_sources [Elf32DependencyProvider P] {levels : ℕ} {requireDynamic : Bool}
    {ctx' : GraphLoadContext P}
    (h : processObject options levels index requireDynamic ctx = (.ok (), ctx')) :
    sources ctx.graph.objects <+: sources ctx'.graph.objects := by
  have hrun := (processObject_rule (sources_rule options (sources ctx.graph.objects)) levels 0 index
    requireDynamic List.prefix_rfl).leaves
  rwa [h] at hrun

end GraphLoadContext

end LibA32Android

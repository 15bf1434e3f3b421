/-
Graph loads and link-map appends are transactions.

* `rollbackFailure_restores`: rolling back the loads of a context gives back the
  view of the memory the call started from;
* `AppendOutcome`: the four ways in which an append can end, with what holds of
  the context in each;
* `dependency_load_transactional`: a failing call of either entry point leaves
  memory and link map as they were.
-/
import LibA32Android.Elf.LinkMapCheck
import LibA32Android.Elf.LoadedDynamic

namespace LibA32Android

open Foundations MappedGuestMemory

/-! ### Rollback -/

/-- The overflow test of the rollback never fires on ranges of the address space. -/
lemma rollbackLoad_eq_unmapAll {load : Elf32LoadResult}
    (h : ∀ r ∈ load.ranges, r.length ≤ 2 ^ 32) (m : MappedGuestMemory) :
    rollbackLoad load m = unmapAll load.ranges m := by
  rw [Elf32LoadResult.ranges] at h ⊢
  rw [rollbackLoad]
  generalize load.segments = segments at h ⊢
  induction segments with
  | nil => rfl
  | cons segment segments ih =>
      have hsize : ¬segment.mappingSize > 2 ^ 64 - 1 := by
        have : segment.mappingSize ≤ 2 ^ 32 := h _ List.mem_cons_self
        omega
      rw [List.foldr_cons, ih fun r hr => h r (List.mem_cons_of_mem _ hr), if_neg hsize]
      rfl

lemma rollbackLoads_eq_unmapAll {loads : List Elf32LoadResult}
    (h : ∀ r ∈ loadedRanges loads, r.length ≤ 2 ^ 32) (m : MappedGuestMemory) :
    rollbackLoads loads m = unmapAll (loadedRanges loads) m := by
  induction loads with
  | nil => rfl
  | cons load loads ih =>
      have hcons : loadedRanges (load :: loads) = load.ranges ++ loadedRanges loads :=
        List.flatMap_cons
      rw [hcons] at h ⊢
      have hrest := ih fun r hr => h r (List.mem_append_right _ hr)
      have hsizes : ∀ r ∈ load.ranges, r.length ≤ 2 ^ 32 := fun r hr =>
        h r (List.mem_append_left _ hr)
      have hload := rollbackLoad_eq_unmapAll hsizes (unmapAll (loadedRanges loads) m).2
      rw [unmapAll_append, ← hload, ← hrest]
      rfl

/-- **Rollback**: with working unmap calls the failure is returned as it is, and
the guest sees the memory from before the call. -/
lemma rollbackFailure_restores {m₀ m : MappedGuestMemory} {loads : List Elf32LoadResult}
    (h : Acquired m₀ (loadedRanges loads) m) (hhost : m₀.UnmapCallsSucceed)
    (failure : Elf32DependencyLoadFailure) :
    (rollbackFailure m loads failure).1 = { failure := some failure }
      ∧ SameView m₀ (rollbackFailure m loads failure).2 := by
  have hsize : ∀ r ∈ loadedRanges loads, r.length ≤ 2 ^ 32 := fun r hr =>
    le_of_add_le_right (h.isRange r hr).end_le
  obtain ⟨hreport, hview⟩ := h.unmapAll hhost
  rw [rollbackFailure, rollbackLoads_eq_unmapAll hsize]
  simp only [hreport, if_true, true_and]
  exact hview

/-! ### The start of a load -/

section Start

variable {P : Type} {memory : MappedGuestMemory} {root : Elf32DependencyLoadSource}
  {options : Elf32DependencyLoadOptions}

lemma checkRoot_identity (h : checkRoot root options = .ok ()) : root.identity ≠ [] := by
  simp only [checkRoot, refuse_bind_ok_iff] at h
  exact h.2.1

lemma checkRoot_error {failure : Elf32DependencyLoadFailure}
    (h : checkRoot root options = .error failure) : failure.error ≠ .invalidLinkMap := by
  simp only [checkRoot, bind_error_iff, refuse_eq_error] at h
  rcases h with ⟨-, rfl⟩ | ⟨-, -, ⟨-, rfl⟩ | ⟨-, -, ⟨-, rfl⟩ | ⟨-, -, ⟨-, rfl⟩ | ⟨-, -, -, rfl⟩⟩⟩⟩
  all_goals simp [loadFailure]

/-- The context of an append satisfies the invariant over the objects of the
link map. -/
lemma appendContext_holds (memory : MappedGuestMemory) {linkMap : Elf32LinkMap}
    (hok : GraphOk linkMap.graph.objects)
    (hroot : root.identity ≠ [])
    (hnew : (identityIndex linkMap.graph.objects).lookup root.identity = none)
    (globalSeen : List Bool) (provider : P) :
    (appendContext memory linkMap ⟨identityIndex linkMap.graph.objects, globalSeen⟩ root
      provider).Holds memory linkMap.graph.objects := by
  refine ⟨⟨List.prefix_append _ _, ?_, List.prefix_append _ _, ?_,
    hok.append_new hroot (lookup_identityIndex_none hnew)⟩, .nil memory⟩
  · simp [appendContext]
  · exact emplace_identityIndex root.image hnew

end Start

/-! ### The outcomes of an append -/

/-- How an append can end.  A refused call has done nothing; the others went
past the validation of the link map.  In a successful one the object at the reported
index has the identity and the image of the root. -/
inductive AppendOutcome {P : Type} (memory : MappedGuestMemory) (linkMap : Elf32LinkMap)
    (root : Elf32DependencyLoadSource) (provider : P) (rootPolicy : Elf32LinkMapRootPolicy) :
    Elf32DependencyLoadResult × Elf32LinkMap × MappedGuestMemory × P → Prop
  | refused (failure : Elf32DependencyLoadFailure)
      (herror : LinkMapOk linkMap → failure.error ≠ .invalidLinkMap) :
      AppendOutcome memory linkMap root provider rootPolicy
        ({ failure := some failure }, linkMap, memory, provider)
  | reused (hok : LinkMapOk linkMap) (rootIndex : ℕ)
      (hroot : (sources linkMap.graph.objects)[rootIndex]? = some ⟨root.identity, root.image⟩) :
      AppendOutcome memory linkMap root provider rootPolicy
        ({ rootObjectIndex := some rootIndex, reusedExistingRoot := true },
          { linkMap with
            roots := recordRoot rootPolicy rootIndex linkMap.roots
            globalScopeObjects :=
              if rootPolicy = .global ∨ globalFlag linkMap.graph.objects rootIndex then
                (recordGlobal linkMap.graph.objects.length rootIndex
                  (scopeMarks linkMap.graph.objects.length linkMap.globalScopeObjects,
                    linkMap.globalScopeObjects)).2
              else linkMap.globalScopeObjects }, memory, provider)
  | failed (hok : LinkMapOk linkMap) (failure : Elf32DependencyLoadFailure)
      (ctx : GraphLoadContext P)
      (hctx : GraphLoadContext.Failed memory linkMap.graph.objects failure ctx) :
      AppendOutcome memory linkMap root provider rootPolicy
        ((rollbackFailure ctx.memory ctx.successfulLoads failure).1, linkMap,
          (rollbackFailure ctx.memory ctx.successfulLoads failure).2, ctx.provider)
  | appended (hok : LinkMapOk linkMap) (ctx : GraphLoadContext P)
      (hctx : ctx.Holds memory linkMap.graph.objects)
      (hroot : (sources ctx.graph.objects)[linkMap.graph.objects.length]?
        = some ⟨root.identity, root.image⟩) :
      AppendOutcome memory linkMap root provider rootPolicy
        ({ rootObjectIndex := some linkMap.graph.objects.length },
          recordAppend linkMap ⟨identityIndex linkMap.graph.objects,
            scopeMarks linkMap.graph.objects.length linkMap.globalScopeObjects⟩ rootPolicy
            ctx.graph,
          ctx.memory, ctx.provider)

/-- The source of an object whose identity is in the index. -/
lemma source_of_lookup {objects : List Elf32LoadedDependencyObject} {identity : ByteString}
    {image : List UInt8} {index : ℕ} (h : (identityIndex objects).lookup identity = some index)
    (himage : (objects.getD index default).image = image) :
    (sources objects)[index]? = some ⟨identity, image⟩ := by
  have hid := lookup_identityIndex_some h
  rw [identities, List.getElem?_map, Option.map_eq_some_iff] at hid
  obtain ⟨object, hobject, rfl⟩ := hid
  rw [List.getD_eq_getElem?_getD, hobject] at himage
  exact sources_getElem?.mpr ⟨object, hobject, himage ▸ rfl⟩

lemma take_of_kept {α : Type} {l l' : List α} (h : l <+: l') : l'.take l.length = l :=
  (List.prefix_iff_eq_take.mp h).symm

theorem appendElf32LinkMapRoot_outcome {P : Type} [Elf32DependencyProvider P]
    (memory : MappedGuestMemory) (linkMap : Elf32LinkMap) (root : Elf32DependencyLoadSource)
    (provider : P) (options : Elf32DependencyLoadOptions) (rootPolicy : Elf32LinkMapRootPolicy) :
    AppendOutcome memory linkMap root provider rootPolicy
      (appendElf32LinkMapRoot memory linkMap root provider options rootPolicy) := by
  rw [appendElf32LinkMapRoot]
  cases hroot : checkRoot root options with
  | error failure => exact .refused failure fun _ => checkRoot_error hroot
  | ok u =>
      simp only
      split
      · exact .refused _ fun _ => by simp [loadFailure]
      cases hcheck : checkLinkMap linkMap with
      | error failure =>
          -- a map that satisfies the invariant would have been accepted
          refine .refused failure fun hok => ?_
          rw [checkLinkMap_ok_iff.mpr ⟨hok, rfl⟩] at hcheck
          cases hcheck
      | ok index =>
          obtain ⟨hok, rfl⟩ := checkLinkMap_ok_iff.mp hcheck
          simp only
          cases hlookup : (identityIndex linkMap.graph.objects).lookup root.identity with
          | some rootIndex =>
              simp only [reuseRoot]
              split
              · exact .refused _ fun _ => by simp [loadFailure]
              · rename_i himage
                exact .reused hok rootIndex (source_of_lookup hlookup (not_not.mp himage))
          | none =>
              simp only
              split
              · exact .refused _ fun _ => by simp [loadFailure]
              have hstart := appendContext_holds memory hok.graph (checkRoot_identity hroot)
                hlookup (scopeMarks linkMap.graph.objects.length linkMap.globalScopeObjects)
                provider
              have hrun := GraphLoadContext.processObject_leaves options
                (options.maxDepth.toNat + 1) linkMap.graph.objects.length false hstart
              split
              · rename_i failure ctx heq
                rw [heq] at hrun
                have hkept := take_of_kept hrun.graph.kept
                simp only [hkept]
                exact .failed hok failure ctx hrun
              · rename_i ctx heq
                rw [heq] at hrun
                obtain ⟨rest, hrest⟩ := GraphLoadContext.processObject_sources heq
                refine .appended hok ctx hrun ?_
                rw [← hrest]
                simp [appendContext, sources, Elf32LoadedDependencyObject.source]

/-! ### The transaction theorem -/

section Transaction

variable {P : Type} [Elf32DependencyProvider P] {memory : MappedGuestMemory}

lemma loadElf32DependencyGraph_failed (hhost : memory.UnmapCallsSucceed)
    (root : Elf32DependencyLoadSource) (provider : P) (options : Elf32DependencyLoadOptions)
    (h : (loadElf32DependencyGraph memory root provider options).1.failure.isSome) :
    memory.SameView (loadElf32DependencyGraph memory root provider options).2.1
      ∧ (loadElf32DependencyGraph memory root provider options).1.graph = {} := by
  cases hroot : checkRoot root options with
  | error failure =>
      rw [loadElf32DependencyGraph, hroot]
      exact ⟨.refl _ _, rfl⟩
  | ok u =>
      have hempty : GraphOk [] := ⟨by simp [identities], List.nodup_nil, by simp⟩
      have hstart : GraphLoadContext.Holds memory [] (rootContext memory root provider) :=
        ⟨⟨ List.nil_prefix, by simp [rootContext], List.nil_prefix, rfl,
          hempty.append_new (checkRoot_identity hroot) (by simp [identities])⟩, .nil memory⟩
      have hrun := GraphLoadContext.processObject_leaves options (options.maxDepth.toNat + 1) 0
        false hstart
      rw [loadElf32DependencyGraph_of_ok hroot] at h ⊢
      split at h
      · rename_i failure ctx heq
        rw [heq] at hrun
        obtain ⟨hresult, hview⟩ := rollbackFailure_restores (hrun.acquired hhost) hhost failure
        exact ⟨hview, by rw [hresult]⟩
      · simp at h

lemma appendElf32LinkMapRoot_failed (hhost : memory.UnmapCallsSucceed) (linkMap : Elf32LinkMap)
    (root : Elf32DependencyLoadSource) (provider : P) (options : Elf32DependencyLoadOptions)
    (rootPolicy : Elf32LinkMapRootPolicy)
    (h : (appendElf32LinkMapRoot memory linkMap root provider options
      rootPolicy).1.failure.isSome) :
    memory.SameView
        (appendElf32LinkMapRoot memory linkMap root provider options rootPolicy).2.2.1
      ∧ (appendElf32LinkMapRoot memory linkMap root provider options rootPolicy).1.graph = {}
      ∧ (appendElf32LinkMapRoot memory linkMap root provider options rootPolicy).2.1 = linkMap := by
  have houtcome := appendElf32LinkMapRoot_outcome memory linkMap root provider options rootPolicy
  generalize appendElf32LinkMapRoot memory linkMap root provider options rootPolicy = result
    at h houtcome ⊢
  cases houtcome with
  | refused failure herror => exact ⟨.refl _ _, rfl, rfl⟩
  | reused hok rootIndex hroot => simp at h
  | failed hok failure ctx hctx =>
      obtain ⟨hresult, hview⟩ := rollbackFailure_restores (hctx.acquired hhost) hhost failure
      exact ⟨hview, by rw [hresult], rfl⟩
  | appended hok ctx hctx hroot => simp at h

end Transaction

/-- **Loading is transactional**: when the host calls behind `unmap` succeed, a
failing graph load or append leaves the mapped pages, their states and their
bytes as they were, returns an empty graph, and an append leaves the link map as
it was.  Host calls behind `map` and `protect` may fail in any pattern, and the
provider is any state machine. -/
theorem dependency_load_transactional {P : Type} [Elf32DependencyProvider P]
    {memory : MappedGuestMemory} (hhost : memory.UnmapCallsSucceed)
    (root : Elf32DependencyLoadSource) (provider : P) (options : Elf32DependencyLoadOptions) :
    ((loadElf32DependencyGraph memory root provider options).1.failure.isSome →
      memory.SameView (loadElf32DependencyGraph memory root provider options).2.1
        ∧ (loadElf32DependencyGraph memory root provider options).1.graph = {})
    ∧ ∀ (linkMap : Elf32LinkMap) (rootPolicy : Elf32LinkMapRootPolicy),
        (appendElf32LinkMapRoot memory linkMap root provider options rootPolicy).1.failure.isSome →
        memory.SameView
            (appendElf32LinkMapRoot memory linkMap root provider options rootPolicy).2.2.1
          ∧ (appendElf32LinkMapRoot memory linkMap root provider options rootPolicy).1.graph = {}
          ∧ (appendElf32LinkMapRoot memory linkMap root provider options rootPolicy).2.1
              = linkMap :=
  ⟨loadElf32DependencyGraph_failed hhost root provider options, fun linkMap rootPolicy =>
    appendElf32LinkMapRoot_failed hhost linkMap root provider options rootPolicy⟩

/-- A provider that answers from a table of names. -/
structure SourceTable where
  sources : List (ByteString × Elf32DependencySource)

instance : Elf32DependencyProvider SourceTable where
  resolveFor table _ requestedName _ :=
    match table.sources.lookup requestedName with
    | none => (.error .notFound, table)
    | some source => (.ok source, table)

/-- Limits that the images here do not reach. -/
def wideOptions : Elf32DependencyLoadOptions where
  maxObjects := 4
  maxDepth := 4
  maxDependencyOccurrences := 16
  maxImageBytes := 4096
  maxTotalImageBytes := 65536
  maxStringBytes := 16
  placement := {}

/-- The root is mapped and inspected, its dependency is not found, and the root
is unmapped again. -/
theorem dependency_load_transactional_needy :
    vacantMemory.SameView (loadElf32DependencyGraph vacantMemory ⟨[97], needyImage⟩
        (SourceTable.mk []) wideOptions).2.1
      ∧ (appendElf32LinkMapRoot vacantMemory {} ⟨[97], needyImage⟩ (SourceTable.mk [])
          wideOptions .global).2.1 = {} := by
  have h := dependency_load_transactional (fun _ => ⟨rfl, rfl⟩ : vacantMemory.UnmapCallsSucceed)
    ⟨[97], needyImage⟩ (SourceTable.mk []) wideOptions
  exact ⟨(h.1 (by decide +kernel)).1, (h.2 {} .global (by decide +kernel)).2.2⟩

end LibA32Android

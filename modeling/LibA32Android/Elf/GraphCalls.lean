/-
The run behind a call.

Both entry points check their arguments and then process one new root, or return at
once.

* `graphStart`, `appendStart`: where the run of a call starts, if there is one;
* `callMoments`, `callContexts`: what it passes;
* `Started`: what holds of the context at the start;
* `CallRun`: a call is idle, fails and rolls back, or loads;
* `loadElf32DependencyGraph_run`, `appendElf32LinkMapRoot_run`: so do both.
-/
import LibA32Android.Elf.GraphTransaction

namespace LibA32Android

open Foundations MappedGuestMemory GraphLoadContext

variable {P : Type}

/-! ### The moments of a call -/

/-- Where the run of `load_elf32_dependency_graph` starts, if there is one. -/
def graphStart (memory : MappedGuestMemory) (root : Elf32DependencyLoadSource) (provider : P)
    (options : Elf32DependencyLoadOptions) : Option (GraphLoadContext P) :=
  match checkRoot root options with
  | .error _ => none
  | .ok () => some (rootContext memory root provider)

/-- Where the run of `append_elf32_link_map_root` starts, if there is one. -/
def appendStart (memory : MappedGuestMemory) (linkMap : Elf32LinkMap)
    (root : Elf32DependencyLoadSource) (provider : P) (options : Elf32DependencyLoadOptions) :
    Option (GraphLoadContext P) :=
  match checkRoot root options with
  | .error _ => none
  | .ok () =>
    if linkMap.graph.objects.length > options.maxObjects.toNat then none
    else
      match checkLinkMap linkMap with
      | .error _ => none
      | .ok index =>
        match index.objectIndices.lookup root.identity with
        | some _ => none
        | none =>
          if linkMap.graph.objects.length ≥ options.maxObjects.toNat then none
          else some (appendContext memory linkMap index root provider)

/-- The moments of a call that starts over `base` objects. -/
def callMoments [Elf32DependencyProvider P] (options : Elf32DependencyLoadOptions) (base : ℕ)
    (start : Option (GraphLoadContext P)) : List (GraphMoment P) :=
  start.elim [] fun ctx =>
    processMoments options (options.maxDepth.toNat + 1) 0 base false ctx

/-- The contexts a call passes: those of its moments, and the one in which it ends. -/
def callContexts [Elf32DependencyProvider P] (options : Elf32DependencyLoadOptions) (base : ℕ)
    (start : Option (GraphLoadContext P)) : List (GraphLoadContext P) :=
  start.elim [] fun ctx => (callMoments options base start).map (·.ctx)
    ++ [(processObject options (options.maxDepth.toNat + 1) base false ctx).2]

/-! ### Calls -/

/-- The context at the start of a run over the objects `base`. -/
structure Started (options : Elf32DependencyLoadOptions) (memory : MappedGuestMemory)
    (provider : P) (base : List Elf32LoadedDependencyObject) (ctx : GraphLoadContext P) :
    Prop where
  holds : ctx.Holds memory base
  provider : ctx.provider = provider
  occurrences : ctx.dependencyOccurrences = 0
  imageBytes : ctx.totalImageBytes ≤ options.maxTotalImageBytes.toNat
  objects : ctx.graph.objects.length ≤ options.maxObjects.toNat
  states : ctx.states.length = ctx.graph.objects.length
  loads : ctx.successfulLoads = []

/-- How a call goes: its start, and its result with the objects, the memory and the
provider after it.  The objects are those of the returned graph or of the link map: the
ones that were there, or those of the context in which the run ends. -/
inductive CallRun [Elf32DependencyProvider P] (options : Elf32DependencyLoadOptions)
    (memory : MappedGuestMemory) (provider : P) (base : List Elf32LoadedDependencyObject) :
    Option (GraphLoadContext P) → Elf32DependencyLoadResult → List Elf32LoadedDependencyObject →
      MappedGuestMemory → P → Prop
  | idle (result : Elf32DependencyLoadResult)
      (hreused : result.failure = none → base.length ≤ options.maxObjects.toNat) :
      CallRun options memory provider base none result base memory provider
  | failed (ctx₀ : GraphLoadContext P) (hstart : Started options memory provider base ctx₀)
      (failure : Elf32DependencyLoadFailure) (ctx : GraphLoadContext P)
      (hrun : processObject options (options.maxDepth.toNat + 1) base.length false ctx₀
        = (.error failure, ctx)) :
      CallRun options memory provider base (some ctx₀)
        (rollbackFailure ctx.memory ctx.successfulLoads failure).1 base
        (rollbackFailure ctx.memory ctx.successfulLoads failure).2 ctx.provider
  | loaded (ctx₀ : GraphLoadContext P) (hstart : Started options memory provider base ctx₀)
      (ctx : GraphLoadContext P)
      (hrun : processObject options (options.maxDepth.toNat + 1) base.length false ctx₀
        = (.ok (), ctx)) (result : Elf32DependencyLoadResult) (hresult : result.failure = none) :
      CallRun options memory provider base (some ctx₀)
        result ctx.graph.objects ctx.memory ctx.provider

/-- A call that fails before it runs. -/
lemma CallRun.refused [Elf32DependencyProvider P] {options : Elf32DependencyLoadOptions}
    {memory : MappedGuestMemory} {provider : P} {base : List Elf32LoadedDependencyObject}
    {result : Elf32DependencyLoadResult} {failure : Elf32DependencyLoadFailure}
    (h : result.failure = some failure) :
    CallRun options memory provider base none result base memory provider := by
  refine .idle result fun hnone => ?_
  rw [h] at hnone
  cases hnone

section Checks

variable {root : Elf32DependencyLoadSource} {options : Elf32DependencyLoadOptions}

lemma checkRoot_limits (h : checkRoot root options = .ok ()) :
    0 < options.maxObjects.toNat ∧ root.image.length ≤ options.maxTotalImageBytes.toNat := by
  simp only [checkRoot, refuse_bind_ok_iff, refuse_ok_iff] at h
  obtain ⟨hobjects, -, -, -, htotal⟩ := h
  exact ⟨Nat.pos_of_ne_zero fun h0 => hobjects (UInt32.toNat_inj.mp h0), Nat.not_lt.mp htotal⟩

lemma rootContext_started (memory : MappedGuestMemory) (provider : P)
    (h : checkRoot root options = .ok ()) :
    Started options memory provider [] (rootContext memory root provider) := by
  have hempty : GraphOk [] := ⟨by simp [identities], List.nodup_nil, by simp⟩
  obtain ⟨hobjects, htotal⟩ := checkRoot_limits h
  exact ⟨⟨⟨ List.nil_prefix, by simp [rootContext], List.nil_prefix, rfl,
    hempty.append_new (checkRoot_identity h) (by simp [identities])⟩, .nil memory⟩, rfl, rfl,
    htotal, hobjects, rfl, rfl⟩

end Checks

variable [Elf32DependencyProvider P]

theorem loadElf32DependencyGraph_run (memory : MappedGuestMemory)
    (root : Elf32DependencyLoadSource) (provider : P) (options : Elf32DependencyLoadOptions) :
    CallRun options memory provider [] (graphStart memory root provider options)
      (loadElf32DependencyGraph memory root provider options).1
      (loadElf32DependencyGraph memory root provider options).1.graph.objects
      (loadElf32DependencyGraph memory root provider options).2.1
      (loadElf32DependencyGraph memory root provider options).2.2 := by
  rw [graphStart]
  cases hroot : checkRoot root options with
  | error failure =>
      rw [loadElf32DependencyGraph, hroot]
      exact .refused rfl
  | ok u =>
      have hstart := rootContext_started memory provider hroot
      rw [loadElf32DependencyGraph_of_ok hroot]
      rcases hrun : processObject options (options.maxDepth.toNat + 1) 0 false
        (rootContext memory root provider) with ⟨failure | _, ctx⟩
      · exact .failed _ hstart failure ctx hrun
      · exact .loaded _ hstart ctx hrun _ rfl

theorem appendElf32LinkMapRoot_run (memory : MappedGuestMemory) (linkMap : Elf32LinkMap)
    (root : Elf32DependencyLoadSource) (provider : P) (options : Elf32DependencyLoadOptions)
    (rootPolicy : Elf32LinkMapRootPolicy) :
    CallRun options memory provider linkMap.graph.objects
      (appendStart memory linkMap root provider options)
      (appendElf32LinkMapRoot memory linkMap root provider options rootPolicy).1
      (appendElf32LinkMapRoot memory linkMap root provider options rootPolicy).2.1.graph.objects
      (appendElf32LinkMapRoot memory linkMap root provider options rootPolicy).2.2.1
      (appendElf32LinkMapRoot memory linkMap root provider options rootPolicy).2.2.2 := by
  rw [appendElf32LinkMapRoot, appendStart]
  cases hroot : checkRoot root options with
  | error failure => exact .refused rfl
  | ok u =>
      simp only
      split
      · exact .refused rfl
      rename_i hcount
      cases hcheck : checkLinkMap linkMap with
      | error failure => exact .refused rfl
      | ok index =>
          obtain ⟨hok, rfl⟩ := checkLinkMap_ok_iff.mp hcheck
          simp only
          cases hlookup : (identityIndex linkMap.graph.objects).lookup root.identity with
          | some rootIndex =>
              simp only [reuseRoot]
              split
              · exact .refused rfl
              · exact .idle _ fun _ => Nat.not_lt.mp hcount
          | none =>
              simp only
              split
              · exact .refused rfl
              rename_i hobjects
              have hholds := appendContext_holds memory hok.graph (checkRoot_identity hroot)
                hlookup (scopeMarks linkMap.graph.objects.length linkMap.globalScopeObjects)
                provider
              have hstart := Started.mk hholds rfl rfl (checkRoot_limits hroot).2
                (by simp [appendContext]; omega) (by simp [appendContext]) rfl
              have hleaves := processObject_leaves options (options.maxDepth.toNat + 1)
                linkMap.graph.objects.length false hholds
              split
              · rename_i failure ctx hrun
                rw [hrun] at hleaves
                simp only [take_of_kept hleaves.graph.kept]
                exact .failed _ hstart failure ctx hrun
              · rename_i ctx hrun
                exact .loaded _ hstart ctx hrun _ rfl

end LibA32Android

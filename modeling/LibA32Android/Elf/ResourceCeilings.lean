/-
The ceilings of a graph load.

Whatever a provider answers, a call stays within its options.  The resolver and the
loader account for the same bytes, so that the second check of the acquired images
never fails.

* `resolveDependencies_requests`, `resolveDependencies_bytes`: what the resolver asks
  for and what it accepts;
* `Within`, `within_rule`: the counters of a context, at every moment of a run;
* `processObject_steps`: the number of moments, which bounds the work of a call;
* `resource_ceilings`: all of it for both entry points.
-/
import LibA32Android.Elf.GraphCalls
import LibA32Android.Elf.ProviderLog

namespace LibA32Android

open Foundations

variable {P : Type} [Elf32DependencyProvider P]

/-! ### The resolver -/

section Resolver

/-- Every request takes a counter of the provider one further. -/
def Counts (Q : P → ℕ → Prop) : Prop :=
  ∀ provider n requesterIdentity requestedName requestLimit, Q provider n →
    Q (Elf32DependencyProvider.resolveFor provider requesterIdentity requestedName
      requestLimit).2 (n + 1)

lemma counts_true : Counts fun (_ : P) (_ : ℕ) => True := fun _ _ _ _ _ _ => trivial

variable {Q : P → ℕ → Prop} {options : Elf32DependencyResolveOptions} {totalImageBytes n : ℕ}
  {provider : P}

lemma resolveDependency_requests (hQ : Counts Q) (h : Q provider n)
    (options : Elf32DependencyResolveOptions) (requestedName : ByteString)
    (totalImageBytes : ℕ) :
    Leaves (fun _ provider => Q provider (n + 1)) (fun _ provider => ∃ k ≤ 1, Q provider (n + k))
      (resolveDependency options requestedName totalImageBytes provider) := by
  have hasked := hQ provider n options.requesterIdentity requestedName (min options.maxImageBytes
    (subU64 options.maxTotalImageBytes totalImageBytes)) h
  simp only [resolveDependency]
  split
  · exact ⟨0, by omega, h⟩
  split
  · exact ⟨0, by omega, h⟩
  split
  · exact ⟨0, by omega, h⟩
  split
  · rename_i heq
    rw [heq] at hasked
    exact ⟨1, le_rfl, hasked⟩
  rename_i heq
  rw [heq] at hasked
  split
  · exact ⟨1, le_rfl, hasked⟩
  · exact hasked

/-- At most one request for a name, and exactly one when all are accepted. -/
lemma resolveDependencies_requests (hQ : Counts Q) (h : Q provider n)
    (options : Elf32DependencyResolveOptions) (names : List ByteString) (totalImageBytes : ℕ) :
    Leaves (fun _ provider => Q provider (n + names.length))
      (fun _ provider => ∃ k ≤ names.length, Q provider (n + k))
      (resolveDependencies options names totalImageBytes provider) := by
  induction names generalizing totalImageBytes n provider with
  | nil => exact h
  | cons requestedName names ih =>
      rw [resolveDependencies]
      have hone := resolveDependency_requests hQ h options requestedName totalImageBytes
      refine (hone.mono (fun _ _ hq => hq) ?_).andThen fun dependency provider₁ h₁ => ?_
      · rintro _ _ ⟨k, hk, hq⟩
        exact ⟨k, hk.trans (by simp), hq⟩
      refine ((ih h₁ _).mono (fun _ _ hq => hq) ?_).andThen fun dependencies provider₂ h₂ => ?_
      · rintro _ _ ⟨k, hk, hq⟩
        exact ⟨k + 1, by simpa using hk, by rwa [Nat.add_assoc, Nat.add_comm 1] at hq⟩
      · show Q provider₂ (n + (names.length + 1))
        rwa [Nat.add_assoc, Nat.add_comm 1] at h₂

/-- The bytes of some images. -/
def bytesOf (dependencies : List Elf32ResolvedDependency) : ℕ :=
  (dependencies.map (·.image.length)).sum

lemma resolveDependency_bytes {requestedName : ByteString} {provider' : P}
    {dependency : Elf32ResolvedDependency} (hmax : options.maxTotalImageBytes < 2 ^ 64)
    (htotal : totalImageBytes ≤ options.maxTotalImageBytes)
    (h : resolveDependency options requestedName totalImageBytes provider
      = (.ok dependency, provider')) :
    totalImageBytes + dependency.image.length ≤ options.maxTotalImageBytes := by
  simp only [resolveDependency] at h
  split at h
  · cases h
  split at h
  · cases h
  split at h
  · cases h
  split at h
  · cases h
  rename_i source provider₁ hanswer
  split at h
  · cases h
  rename_i hcheck
  cases h
  simp only [checkSource, refuse_bind_ok_iff, refuse_ok_iff] at hcheck
  have hfits := hcheck.2.2.2
  rw [subU64_of_le htotal hmax] at hfits
  show totalImageBytes + source.image.length ≤ _
  omega

/-- The accepted images fit into the total. -/
lemma resolveDependencies_bytes {names : List ByteString} {provider' : P}
    {dependencies : List Elf32ResolvedDependency} (hmax : options.maxTotalImageBytes < 2 ^ 64)
    (htotal : totalImageBytes ≤ options.maxTotalImageBytes)
    (h : resolveDependencies options names totalImageBytes provider
      = (.ok dependencies, provider')) :
    totalImageBytes + bytesOf dependencies ≤ options.maxTotalImageBytes := by
  induction names generalizing totalImageBytes provider dependencies with
  | nil =>
      cases h
      simpa [bytesOf] using htotal
  | cons requestedName names ih =>
      rw [resolveDependencies, andThen_ok_iff] at h
      obtain ⟨dependency, provider₁, hone, hrest⟩ := h
      rw [andThen_ok_iff] at hrest
      obtain ⟨rest, provider₂, hrest, hret⟩ := hrest
      cases hret
      have hle := ih (resolveDependency_bytes hmax htotal hone) hrest
      rw [bytesOf, List.map_cons, List.sum_cons, ← Nat.add_assoc]
      exact hle

end Resolver

/-- The second check accepts what fits. -/
lemma countAcquired_eq {remainingTotal : ℕ} (hmax : remainingTotal < 2 ^ 64)
    (dependencies : List Elf32ResolvedDependency) (acquiredBytes : ℕ)
    (h : acquiredBytes + bytesOf dependencies ≤ remainingTotal) :
    GraphLoadContext.countAcquired remainingTotal dependencies acquiredBytes
      = some (acquiredBytes + bytesOf dependencies) := by
  induction dependencies generalizing acquiredBytes with
  | nil => rfl
  | cons dependency dependencies ih =>
      rw [bytesOf, List.map_cons, List.sum_cons, ← Nat.add_assoc] at h ⊢
      change acquiredBytes + dependency.image.length + bytesOf dependencies ≤ _ at h
      have hfits : ¬dependency.image.length > subU64 remainingTotal acquiredBytes := by
        rw [subU64_of_le (by omega) hmax]
        omega
      rw [GraphLoadContext.countAcquired, if_neg hfits]
      exact ih _ h

namespace GraphLoadContext

/-! ### The counters of a context -/

/-- The counters are within the limits. -/
structure Within (options : Elf32DependencyLoadOptions) (ctx : GraphLoadContext P) : Prop where
  occurrences : ctx.dependencyOccurrences ≤ options.maxDependencyOccurrences.toNat
  imageBytes : ctx.totalImageBytes ≤ options.maxTotalImageBytes.toNat
  objects : ctx.graph.objects.length ≤ options.maxObjects.toNat
  states : ctx.states.length = ctx.graph.objects.length

variable {Q : P → ℕ → Prop} {options : Elf32DependencyLoadOptions} {ctx ctx' : GraphLoadContext P}
  {index : ℕ}

/-- Acquisition adds as many occurrences as it returns dependencies. -/
lemma acquireAt_ok {dependencies : List Elf32ResolvedDependency}
    (h : ctx.acquireAt options index = (.ok dependencies, ctx')) :
    ctx'.dependencyOccurrences = ctx.dependencyOccurrences + dependencies.length
      ∧ ctx'.states = ctx.states := by
  simp only [acquireAt] at h
  split at h
  · cases h
  split at h
  · cases h
  split at h
  · cases h
    exact ⟨rfl, rfl⟩
  split at h
  · cases h
  rename_i dependencies' provider hresolve
  split at h
  · cases h
  cases h
  refine ⟨?_, rfl⟩
  show ctx.dependencyOccurrences + (ctx.object index).linkerStrings.needed.length = _
  rw [← (resolveElf32Dependencies_ok hresolve).2, List.length_map]

/-- **Acquisition stays within the limits**, and its second check never fails. -/
lemma Within.acquireAt (h : ctx.Within options) (hQ : Counts Q)
    (hcount : Q ctx.provider ctx.dependencyOccurrences) (index : ℕ) :
    Leaves
      (fun dependencies ctx => (ctx.Within options ∧ Q ctx.provider ctx.dependencyOccurrences)
        ∧ ∀ d ∈ dependencies, d.Ok)
      (fun failure ctx => (ctx.Within options
          ∧ ∃ n ≤ options.maxDependencyOccurrences.toNat, Q ctx.provider n)
        ∧ failure.error ≠ .totalImageBytesExceeded)
      (ctx.acquireAt options index) := by
  have hocc := subU64_of_le h.occurrences options.maxDependencyOccurrences.toNat_lt
  have htotal := subU64_of_le h.imageBytes options.maxTotalImageBytes.toNat_lt
  simp only [GraphLoadContext.acquireAt, hocc, htotal]
  split
  · exact ⟨⟨h, _, h.occurrences, hcount⟩, by simp [loadFailure]⟩
  split
  · exact ⟨⟨h, _, h.occurrences, hcount⟩, by simp [loadFailure]⟩
  rename_i hdirect
  have hle : ctx.dependencyOccurrences + (ctx.object index).linkerStrings.needed.length
      ≤ options.maxDependencyOccurrences.toNat := by
    have := h.occurrences
    omega
  split
  · exact ⟨⟨h, hcount⟩, fun _ hd => absurd hd List.not_mem_nil⟩
  generalize hoptions : Elf32DependencyResolveOptions.mk _ _ _ _ = resolveOptions
  have hremaining : resolveOptions.maxTotalImageBytes
      = options.maxTotalImageBytes.toNat - ctx.totalImageBytes := by rw [← hoptions]
  have hrequests := resolveDependencies_requests hQ hcount resolveOptions
    (ctx.object index).linkerStrings.needed 0
  split
  · rename_i e provider hresolve
    refine ⟨⟨⟨h.occurrences, h.imageBytes, h.objects, h.states⟩, ?_⟩, by simp [loadFailure]⟩
    rw [resolveElf32Dependencies] at hresolve
    split at hresolve
    · cases hresolve
      exact ⟨_, h.occurrences, hcount⟩
    · rw [hresolve] at hrequests
      obtain ⟨k, hk, hq⟩ := hrequests
      exact ⟨_, by omega, hq⟩
  rename_i dependencies provider hresolve
  have hok := (resolveElf32Dependencies_ok hresolve).1
  rw [resolveElf32Dependencies] at hresolve
  split at hresolve
  · cases hresolve
  have hlt : options.maxTotalImageBytes.toNat < 2 ^ 64 := options.maxTotalImageBytes.toNat_lt
  have hbytes := resolveDependencies_bytes (by omega) (Nat.zero_le _) hresolve
  rw [hremaining, Nat.zero_add] at hbytes
  rw [hresolve] at hrequests
  have hcounted : countAcquired (options.maxTotalImageBytes.toNat - ctx.totalImageBytes)
      dependencies 0 = some (bytesOf dependencies) :=
    (countAcquired_eq (by omega) dependencies 0 (by omega)).trans (by rw [Nat.zero_add])
  simp only [hcounted]
  refine ⟨⟨⟨hle, ?_, h.objects, h.states⟩, hrequests⟩, hok⟩
  have := h.imageBytes
  show ctx.totalImageBytes + bytesOf dependencies ≤ _
  omega

/-- The steps of a load keep the counters within the limits. -/
lemma within_rule (hQ : Counts Q) (options : Elf32DependencyLoadOptions) :
    ProcessRule options
      (fun ctx => ctx.Within options ∧ Q ctx.provider ctx.dependencyOccurrences)
      (fun _ ctx => ctx.Within options
        ∧ ∃ n ≤ options.maxDependencyOccurrences.toNat, Q ctx.provider n) (fun _ => True) where
  named h := h
  discovered _ _ := trivial
  tooDeep h _ := ⟨h.1, _, h.1.occurrences, h.2⟩
  begun h _ := ⟨⟨h.1.occurrences, h.1.imageBytes, h.1.objects,
    by simpa [setState] using h.1.states⟩, h.2⟩
  ended h _ := ⟨⟨h.1.occurrences, h.1.imageBytes, h.1.objects,
    by simpa [setState] using h.1.states⟩, h.2⟩
  loaded h _ hload := by
    rw [loadAt] at hload
    split at hload
    · cases hload
    · cases hload
      refine ⟨⟨h.1.occurrences, h.1.imageBytes, ?_, ?_⟩, h.2⟩
      · simpa [setObject] using h.1.objects
      · simpa [setObject] using h.1.states
  inspected {ctx index} h _ := by
    have hwithin : (ctx.setObject index
        (inspectObject ctx.memory (ctx.object index) options).2).Within options :=
      ⟨h.1.occurrences, h.1.imageBytes, by simpa [setObject] using h.1.objects,
        by simpa [setObject] using h.1.states⟩
    rw [inspectAt]
    cases (inspectObject ctx.memory (ctx.object index) options).1 with
    | error failure => exact ⟨hwithin, _, h.1.occurrences, h.2⟩
    | ok _ => exact ⟨hwithin, h.2⟩
  acquired h _ := (h.1.acquireAt hQ h.2 _).mono (fun _ _ h => h) fun _ _ h => h.1
  mismatched h := ⟨h.1, _, h.1.occurrences, h.2⟩
  full h := ⟨h.1, _, h.1.occurrences, h.2⟩
  known h _ _ _ := ⟨⟨h.1.occurrences, h.1.imageBytes,
    by simpa [withKnown, addEdge, setObject] using h.1.objects,
    by simpa [withKnown, addEdge, setObject] using h.1.states⟩, h.2⟩
  added h _ _ _ hmax := ⟨⟨h.1.occurrences, h.1.imageBytes,
    by simpa [withNew, addEdge, addObject, setObject] using hmax,
    by simpa [withNew, addEdge, addObject, setObject] using h.1.states⟩, h.2⟩

/-! ### The number of steps -/

/-- The objects whose processing has begun, or that were there before. -/
def settled (ctx : GraphLoadContext P) : ℕ := ctx.states.countP (· ≠ .discovered)

/-- What pays for the moments of a run: three for each object, and one for each
occurrence of a dependency. -/
def paid (ctx : GraphLoadContext P) : ℕ := 3 * ctx.settled + ctx.dependencyOccurrences

omit [Elf32DependencyProvider P] in
lemma settled_loading (h : ctx.state index = .discovered) :
    (ctx.setState index .loading).settled = ctx.settled + 1 := by
  rw [state, List.getD_eq_getElem?_getD] at h
  obtain ⟨hlt, hget⟩ : ∃ hlt : index < ctx.states.length, ctx.states[index] = .discovered := by
    cases hstate : ctx.states[index]? with
    | none => simp [hstate] at h
    | some state =>
        rw [hstate, Option.getD_some] at h
        obtain ⟨hlt, hget⟩ := List.getElem?_eq_some_iff.mp hstate
        exact ⟨hlt, hget.trans h⟩
  rw [settled, setState, List.countP_set hlt, hget]
  simp [settled]

omit [Elf32DependencyProvider P] in
lemma settled_loaded (ctx : GraphLoadContext P) (index : ℕ) :
    ctx.settled ≤ (ctx.setState index .loaded).settled := by
  rw [settled, settled, setState]
  by_cases hlt : index < ctx.states.length
  · rw [List.countP_set hlt]
    split <;> simp
    omega
  · rw [List.set_eq_of_length_le (Nat.not_lt.mp hlt)]

omit [Elf32DependencyProvider P] in
lemma loadAt_paid (requireDynamic : Bool) :
    (ctx.loadAt options index requireDynamic).2.paid = ctx.paid := by
  rw [loadAt]
  split
  · rfl
  · rfl

lemma acquireAt_paid :
    Leaves (fun dependencies ctx' => ctx'.paid = ctx.paid + dependencies.length)
      (fun _ ctx' => ctx.paid ≤ ctx'.paid) (ctx.acquireAt options index) := by
  rcases h : ctx.acquireAt options index with ⟨failure | dependencies, ctx'⟩
  · show ctx.paid ≤ ctx'.paid
    simp only [acquireAt] at h
    split at h
    · cases h
      exact le_rfl
    split at h
    · cases h
      exact le_rfl
    split at h
    · cases h
    split at h
    · cases h
      exact le_rfl
    split at h
    · cases h
      show 3 * ctx.settled + ctx.dependencyOccurrences ≤ 3 * ctx.settled + (_ + _)
      omega
    · cases h
  · obtain ⟨hocc, hstates⟩ := acquireAt_ok h
    show ctx'.paid = _
    rw [paid, paid, hocc, settled, settled, hstates, Nat.add_assoc]

section Steps

variable {process : ℕ → GraphLoadContext P →
    Except Elf32DependencyLoadFailure Unit × GraphLoadContext P}
  {moments : ℕ → GraphLoadContext P → List (GraphMoment P)}

omit [Elf32DependencyProvider P] in
/-- A round pays for the moments of what it processes. -/
lemma processDependency_steps
    (hprocess : ∀ target ctx, (moments target ctx).length + ctx.paid ≤ (process target ctx).2.paid)
    (options : Elf32DependencyLoadOptions) (index : ℕ) (dependency : Elf32ResolvedDependency)
    (ctx : GraphLoadContext P) :
    ((nestedCall options index dependency ctx).elim [] fun call =>
        moments call.1 call.2).length + ctx.paid
      ≤ (ctx.processDependency options process index dependency).2.paid := by
  have hround := dependencyRound options process index dependency ctx
  have hname : ∀ (name : ByteString)
      (nested : Except Elf32DependencyLoadFailure Unit × GraphLoadContext P),
      (nameFailure name nested).2 = nested.2 := by
    rintro name ⟨_ | _, ctx⟩
    · rfl
    · rfl
  generalize nestedCall options index dependency ctx = nested at hround ⊢
  generalize ctx.processDependency options process index dependency = result at hround ⊢
  cases hround with
  | mismatch => exact (Nat.zero_add _).le
  | reused => exact (Nat.zero_add _).le
  | resumed target =>
      rw [hname]
      exact hprocess target (ctx.withKnown index dependency target)
  | full => exact (Nat.zero_add _).le
  | added =>
      rw [hname]
      have hnew : (ctx.withNew index dependency).paid = ctx.paid := by
        simp [paid, settled, withNew, addEdge, addObject, setObject]
      rw [← hnew]
      exact hprocess _ _

omit [Elf32DependencyProvider P] in
lemma processDependencies_steps
    (hprocess : ∀ target ctx, (moments target ctx).length + ctx.paid ≤ (process target ctx).2.paid)
    (options : Elf32DependencyLoadOptions) (depth index : ℕ)
    (dependencies : List Elf32ResolvedDependency) (ctx : GraphLoadContext P) :
    (dependencyMoments options process moments depth index dependencies ctx).length + ctx.paid
      ≤ dependencies.length
        + (ctx.processDependencies options process index dependencies).2.paid := by
  induction dependencies generalizing ctx with
  | nil => exact le_rfl
  | cons dependency dependencies ih =>
      have hone := processDependency_steps hprocess options index dependency ctx
      rw [dependencyMoments, processDependencies, List.length_cons, List.length_append,
        List.length_cons]
      generalize ctx.processDependency options process index dependency = round at hone ⊢
      obtain ⟨_ | _, ctx'⟩ := round
      · change _ ≤ ctx'.paid at hone
        simp only [afterOk, andThen, List.length_nil]
        omega
      · have hrest := ih ctx'
        change _ ≤ ctx'.paid at hone
        simp only [afterOk, andThen]
        omega

end Steps

/-- **A run is paid for**: three moments for each object that is processed, and one
for each occurrence. -/
theorem processObject_steps (options : Elf32DependencyLoadOptions) (levels depth index : ℕ)
    (requireDynamic : Bool) (ctx : GraphLoadContext P) :
    (processMoments options levels depth index requireDynamic ctx).length + ctx.paid
      ≤ (processObject options levels index requireDynamic ctx).2.paid := by
  induction levels generalizing depth index requireDynamic ctx with
  | zero =>
      rw [processMoments, processObject]
      split
      · exact (Nat.zero_add _).le
      · exact (Nat.zero_add _).le
  | succ levels ih =>
      rw [processMoments, processObject]
      split
      · exact (Nat.zero_add _).le
      rename_i hstate
      have hbegun : (ctx.setState index .loading).paid = ctx.paid + 3 := by
        rw [paid, settled_loading (not_not.mp hstate), paid]
        show 3 * (ctx.settled + 1) + ctx.dependencyOccurrences = _
        omega
      generalize ctx.setState index .loading = ctx₀ at hbegun ⊢
      have hload : (ctx₀.loadAt options index requireDynamic).2.paid = ctx₀.paid :=
        loadAt_paid requireDynamic
      generalize ctx₀.loadAt options index requireDynamic = loaded at hload ⊢
      obtain ⟨_ | _, ctx₁⟩ := loaded
      · show 1 + ctx.paid ≤ ctx₁.paid
        change ctx₁.paid = _ at hload
        omega
      change ctx₁.paid = _ at hload
      have hinspect : (ctx₁.inspectAt options index).2.paid = ctx₁.paid := rfl
      simp only [andThen, afterOk]
      generalize ctx₁.inspectAt options index = inspected at hinspect ⊢
      obtain ⟨_ | _, ctx₂⟩ := inspected
      · show 2 + ctx.paid ≤ ctx₂.paid
        change ctx₂.paid = _ at hinspect
        omega
      change ctx₂.paid = _ at hinspect
      have hacquire : Leaves _ _ (ctx₂.acquireAt options index) := acquireAt_paid
      simp only
      generalize ctx₂.acquireAt options index = acquired at hacquire ⊢
      obtain ⟨_ | dependencies, ctx₃⟩ := acquired
      · show 3 + ctx.paid ≤ ctx₃.paid
        change _ ≤ ctx₃.paid at hacquire
        omega
      change ctx₃.paid = _ at hacquire
      have hloop : (dependencyMoments options
            (fun target ctx => processObject options levels target true ctx)
            (fun target ctx => processMoments options levels (depth + 1) target true ctx)
            depth index dependencies ctx₃).length + ctx₃.paid
          ≤ dependencies.length + (ctx₃.processDependencies options
            (fun target ctx => processObject options levels target true ctx) index
            dependencies).2.paid :=
        processDependencies_steps (fun target ctx => ih (depth + 1) target true ctx) options depth
          index dependencies ctx₃
      simp only [List.length_cons]
      generalize ctx₃.processDependencies options
        (fun target ctx => processObject options levels target true ctx) index dependencies
        = loop at hloop ⊢
      obtain ⟨_ | _, ctx₄⟩ := loop
      · change _ ≤ _ + ctx₄.paid at hloop
        show _ ≤ ctx₄.paid
        omega
      · change _ ≤ _ + ctx₄.paid at hloop
        show _ ≤ (ctx₄.setState index .loaded).paid
        have hended : ctx₄.paid ≤ (ctx₄.setState index .loaded).paid := by
          have := settled_loaded ctx₄ index
          show 3 * ctx₄.settled + ctx₄.dependencyOccurrences
            ≤ 3 * _ + ctx₄.dependencyOccurrences
          omega
        omega

omit [Elf32DependencyProvider P] in
lemma Within.paid_le (h : ctx.Within options) :
    ctx.paid ≤ 3 * options.maxObjects.toNat + options.maxDependencyOccurrences.toNat := by
  have hsettled : ctx.settled ≤ ctx.states.length := List.countP_le_length
  have hobjects := h.objects
  have hocc := h.occurrences
  rw [h.states] at hsettled
  rw [paid]
  omega

end GraphLoadContext

/-! ### The calls -/

/-- What holds of a call over the objects `base`: it runs from `start`, makes the
requests `requests`, and leaves `result`, `objects`, `memory'` and `provider'`. -/
structure Ceilings (options : Elf32DependencyLoadOptions) (memory : MappedGuestMemory)
    (provider : P) (base : List Elf32LoadedDependencyObject)
    (start : Option (GraphLoadContext P)) (requests : List ProviderRequest)
    (result : Elf32DependencyLoadResult) (objects : List Elf32LoadedDependencyObject)
    (memory' : MappedGuestMemory) (provider' : P) : Prop where
  /-- The call is this run: what it leaves is read from the context in which it ends. -/
  run : CallRun options memory provider base start result objects memory' provider'
  /-- The graph or link map that a successful call leaves. -/
  accumulated : result.failure = none → objects.length ≤ options.maxObjects.toNat
  /-- The call ends after a bounded number of loads, inspections, acquisitions and rounds. -/
  steps : (callMoments options base.length start).length
    ≤ 3 * options.maxObjects.toNat + options.maxDependencyOccurrences.toNat
  within : ∀ ctx ∈ callContexts options base.length start, ctx.Within options
  /-- Neither subtraction of the source wraps. -/
  remaining : ∀ ctx ∈ callContexts options base.length start,
    subU64 options.maxDependencyOccurrences.toNat ctx.dependencyOccurrences
        = options.maxDependencyOccurrences.toNat - ctx.dependencyOccurrences
      ∧ subU64 options.maxTotalImageBytes.toNat ctx.totalImageBytes
        = options.maxTotalImageBytes.toNat - ctx.totalImageBytes
  requests : requests.length ≤ options.maxDependencyOccurrences.toNat
  depth : ∀ moment ∈ callMoments options base.length start,
    moment.depth ≤ options.maxDepth.toNat
  /-- Every load of the run is made at one of these moments. -/
  loads : ∀ ctx ∈ start, (GraphLoadContext.processObject options (options.maxDepth.toNat + 1)
      base.length false ctx).2.successfulLoads
    = (callMoments options base.length start).flatMap (·.loads options)
  /-- The check of the acquired images after resolution never fails. -/
  recheck : ∀ moment ∈ callMoments options base.length start, moment.stage = .acquire →
    ∀ failure ctx', moment.ctx.acquireAt options moment.index = (.error failure, ctx') →
      failure.error ≠ .totalImageBytesExceeded

section Calls

variable {Q : P → ℕ → Prop} {options : Elf32DependencyLoadOptions}
  {memory memory' : MappedGuestMemory} {provider provider' : P}
  {base objects : List Elf32LoadedDependencyObject} {start : Option (GraphLoadContext P)}
  {result : Elf32DependencyLoadResult}

omit [Elf32DependencyProvider P] in
lemma Started.within {ctx : GraphLoadContext P} (h : Started options memory provider base ctx) :
    ctx.Within options :=
  ⟨by rw [h.occurrences]; exact Nat.zero_le _, h.imageBytes, h.objects, h.states⟩

/-- Every context of a run, with a counter of the provider. -/
lemma Started.run {ctx : GraphLoadContext P} (h : Started options memory provider base ctx)
    (hQ : Counts Q) (hcount : Q provider 0) (levels depth index : ℕ) (requireDynamic : Bool) :
    ((GraphLoadContext.processObject options levels index requireDynamic ctx).2.Within options
        ∧ ∃ n ≤ options.maxDependencyOccurrences.toNat,
          Q (GraphLoadContext.processObject options levels index requireDynamic ctx).2.provider n)
      ∧ ∀ moment ∈ GraphLoadContext.processMoments options levels depth index requireDynamic ctx,
          moment.ctx.Within options
            ∧ Q moment.ctx.provider moment.ctx.dependencyOccurrences := by
  have hrun := GraphLoadContext.processObject_rule (GraphLoadContext.within_rule hQ options)
    levels depth index requireDynamic
    ⟨h.within, by rw [h.provider, h.occurrences]; exact hcount⟩
  refine ⟨?_, hrun.moments⟩
  have hleaves := hrun.leaves
  generalize GraphLoadContext.processObject options levels index requireDynamic ctx = run
    at hleaves ⊢
  obtain ⟨failure | _, ctx'⟩ := run
  · rcases hleaves with hfailed | ⟨moment, hm, requireDynamic', failure', -, hload, -⟩
    · exact hfailed
    · -- a load that fails changes nothing but the memory
      obtain ⟨hwithin, hcounted⟩ := hrun.moments moment hm
      rw [GraphLoadContext.loadAt] at hload
      split at hload
      · cases hload
        exact ⟨⟨hwithin.occurrences, hwithin.imageBytes, hwithin.objects, hwithin.states⟩, _,
          hwithin.occurrences, hcounted⟩
      · cases hload
  · exact ⟨hleaves.1, _, hleaves.1.occurrences, hleaves.2⟩

/-- The requests of a call are counted by any counter that starts at zero. -/
lemma CallRun.counted
    (h : CallRun options memory provider base start result objects memory' provider')
    (hQ : Counts Q) (hcount : Q provider 0) :
    ∃ n ≤ options.maxDependencyOccurrences.toNat, Q provider' n := by
  cases h with
  | idle => exact ⟨0, Nat.zero_le _, hcount⟩
  | failed ctx₀ hstart failure ctx hrun =>
      have hend := (hstart.run hQ hcount (options.maxDepth.toNat + 1) 0 base.length false).1.2
      rwa [hrun] at hend
  | loaded ctx₀ hstart ctx hrun =>
      have hend := (hstart.run hQ hcount (options.maxDepth.toNat + 1) 0 base.length false).1.2
      rwa [hrun] at hend

/-- The objects that a successful call leaves. -/
lemma CallRun.objects_le
    (h : CallRun options memory provider base start result objects memory' provider')
    (hsuccess : result.failure = none) : objects.length ≤ options.maxObjects.toNat := by
  cases h with
  | idle _ hreused => exact hreused hsuccess
  | failed ctx₀ hstart failure ctx hrun => simp [rollbackFailure] at hsuccess
  | loaded ctx₀ hstart ctx hrun =>
      have hend := (hstart.run counts_true trivial (options.maxDepth.toNat + 1) 0 base.length
        false).1.1
      rw [hrun] at hend
      exact hend.objects

/-- Where a run starts. -/
lemma CallRun.started
    (h : CallRun options memory provider base start result objects memory' provider') :
    ∀ ctx ∈ start, Started options memory provider base ctx := by
  cases h with
  | idle => exact fun _ hctx => absurd hctx (Option.not_mem_none _)
  | failed ctx₀ hstart => exact fun ctx hctx => Option.some.inj hctx ▸ hstart
  | loaded ctx₀ hstart => exact fun ctx hctx => Option.some.inj hctx ▸ hstart

/-- The ceilings hold in every context that a run passes, and in the last one. -/
lemma CallRun.within
    (h : CallRun options memory provider base start result objects memory' provider') :
    (∀ moment ∈ callMoments options base.length start, moment.ctx.Within options)
      ∧ ∀ ctx ∈ callContexts options base.length start, ctx.Within options := by
  have hstarted := h.started
  cases start with
  | none => exact ⟨fun _ hm => absurd hm List.not_mem_nil, fun _ hm => absurd hm List.not_mem_nil⟩
  | some ctx₀ =>
      have hrun := (hstarted ctx₀ rfl).run counts_true trivial (options.maxDepth.toNat + 1) 0
        base.length false
      refine ⟨fun moment hm => (hrun.2 moment hm).1, fun ctx hctx => ?_⟩
      rcases List.mem_append.mp hctx with hctx | hctx
      · obtain ⟨moment, hm, rfl⟩ := List.mem_map.mp hctx
        exact (hrun.2 moment hm).1
      · rw [List.mem_singleton.mp hctx]
        exact hrun.1.1

/-- A run takes a bounded number of steps. -/
lemma CallRun.steps_le
    (h : CallRun options memory provider base start result objects memory' provider') :
    (callMoments options base.length start).length
      ≤ 3 * options.maxObjects.toNat + options.maxDependencyOccurrences.toNat := by
  have hstarted := h.started
  cases start with
  | none => exact Nat.zero_le _
  | some ctx =>
      have hsteps := GraphLoadContext.processObject_steps options (options.maxDepth.toNat + 1) 0
        base.length false ctx
      have hend := ((hstarted ctx rfl).run counts_true trivial (options.maxDepth.toNat + 1) 0
        base.length false).1.1.paid_le
      exact (Nat.le_add_right _ _).trans (hsteps.trans hend)

/-- A run does not go deeper than its limit. -/
lemma depth_le_of_mem_callMoments {size : ℕ} {moment : GraphMoment P}
    (hm : moment ∈ callMoments options size start) : moment.depth ≤ options.maxDepth.toNat := by
  cases start with
  | none => exact absurd hm List.not_mem_nil
  | some ctx =>
      have hlt := GraphLoadContext.processMoments_depth _ _ _ _ _ moment hm
      omega

/-- **The ceilings hold of every run.** -/
lemma CallRun.ceilings
    (h : CallRun options memory provider base start result objects memory' provider')
    {requests : List ProviderRequest}
    (hrequests : requests.length ≤ options.maxDependencyOccurrences.toNat) :
    Ceilings options memory provider base start requests result objects memory' provider' where
  run := h
  accumulated := h.objects_le
  steps := h.steps_le
  within := h.within.2
  remaining ctx hctx :=
    ⟨subU64_of_le (h.within.2 ctx hctx).occurrences options.maxDependencyOccurrences.toNat_lt,
      subU64_of_le (h.within.2 ctx hctx).imageBytes options.maxTotalImageBytes.toNat_lt⟩
  requests := hrequests
  depth moment hm := depth_le_of_mem_callMoments hm
  loads ctx hctx := by
    have hloads := GraphLoadContext.processObject_loads options (options.maxDepth.toNat + 1) 0
      base.length false ctx
    rw [(h.started ctx hctx).loads, List.nil_append] at hloads
    obtain rfl : start = some ctx := hctx
    exact hloads
  recheck moment hm _ failure ctx' hacquire := by
    have hleaves := (h.within.1 moment hm).acquireAt counts_true trivial moment.index
    rw [hacquire] at hleaves
    exact hleaves.2

/-- A record counts the requests. -/
lemma recorded_counts :
    Counts fun (recorded : Recorded P) (n : ℕ) => recorded.requests.length = n := by
  intro recorded n requesterIdentity requestedName requestLimit h
  show (recorded.requests ++ [_]).length = n + 1
  rw [List.length_append, List.length_singleton, h]

end Calls

/-- **The ceilings hold against any provider**, for both entry points: each call is a
run from its start, the ceilings hold in every context that this run passes, and the graph
or the link map that the call leaves is that of the context in which it ends. -/
theorem resource_ceilings (memory : MappedGuestMemory) (root : Elf32DependencyLoadSource)
    (provider : P) (options : Elf32DependencyLoadOptions) :
    let loaded := loadElf32DependencyGraph memory root provider options
    Ceilings options memory provider [] (graphStart memory root provider options)
        (graphRequests memory root provider options) loaded.1 loaded.1.graph.objects loaded.2.1
        loaded.2.2
      ∧ ∀ (linkMap : Elf32LinkMap) (rootPolicy : Elf32LinkMapRootPolicy),
          let appended := appendElf32LinkMapRoot memory linkMap root provider options rootPolicy
          Ceilings options memory provider linkMap.graph.objects
            (appendStart memory linkMap root provider options)
            (appendRequests memory linkMap root provider options rootPolicy) appended.1
            appended.2.1.graph.objects appended.2.2.1 appended.2.2.2 := by
  intro loaded
  constructor
  · obtain ⟨n, hn, hlength⟩ := (loadElf32DependencyGraph_run memory root (Recorded.mk provider [])
      options).counted recorded_counts rfl
    exact (loadElf32DependencyGraph_run memory root provider options).ceilings
      (hlength.trans_le hn)
  · intro linkMap rootPolicy
    obtain ⟨n, hn, hlength⟩ := (appendElf32LinkMapRoot_run memory linkMap root
      (Recorded.mk provider []) options rootPolicy).counted recorded_counts rfl
    exact (appendElf32LinkMapRoot_run memory linkMap root provider options rootPolicy).ceilings
      (hlength.trans_le hn)

end LibA32Android

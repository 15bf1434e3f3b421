/-
Ceilings never change what a load gives.

A graph load and an append compare counters with the limits of their options, and hand the
bytes that are left to the provider.  None of this can be seen in a result: under larger
limits a call that succeeds does the same again.

* `Steady`: a provider that delivers under a larger limit what it delivers under a smaller
  one; catalogs are steady, and so are chains of steady providers (`chain_steady`);
* `acquireAt_larger`, `inspectAt_larger`, `processDependency_larger`: the steps of a load
  that look at the limits;
* `processObject_larger`: the recursion, whose depth is a limit itself;
* `load_of_larger_ceilings`: both entry points.
-/
import LibA32Android.Elf.DependencyProviders
import LibA32Android.Elf.LookupCeilings
import LibA32Android.Elf.MetadataConsumers

namespace LibA32Android

open Foundations QueryProgram GraphLoadContext

/-! ### Limits -/

/-- Each ceiling is at most the other one, and images are placed in the same window. -/
structure Elf32DependencyLoadOptions.Below (options options' : Elf32DependencyLoadOptions) :
    Prop where
  maxObjects : options.maxObjects ≤ options'.maxObjects
  maxDepth : options.maxDepth ≤ options'.maxDepth
  maxDependencyOccurrences :
    options.maxDependencyOccurrences ≤ options'.maxDependencyOccurrences
  maxImageBytes : options.maxImageBytes ≤ options'.maxImageBytes
  maxTotalImageBytes : options.maxTotalImageBytes ≤ options'.maxTotalImageBytes
  maxStringBytes : options.maxStringBytes ≤ options'.maxStringBytes
  placement : options.placement = options'.placement

/-- The same for the requests of one object; the totals are `uint64_t` values. -/
structure Elf32DependencyResolveOptions.Below (options options' : Elf32DependencyResolveOptions) :
    Prop where
  maxDependencies : options.maxDependencies = options'.maxDependencies
  maxImageBytes : options.maxImageBytes ≤ options'.maxImageBytes
  maxTotalImageBytes : options.maxTotalImageBytes ≤ options'.maxTotalImageBytes
  maxTotalImageBytes_lt : options'.maxTotalImageBytes < 2 ^ 64
  requesterIdentity : options.requesterIdentity = options'.requesterIdentity

/-! ### Providers -/

/-- What is delivered under a limit is delivered under a larger one. -/
def Steady (P : Type) [Elf32DependencyProvider P] : Prop :=
  ∀ {provider provider' : P} {requesterIdentity requestedName : ByteString} {limit limit' : ℕ}
    {source : Elf32DependencySource}, limit ≤ limit' →
    Elf32DependencyProvider.resolveFor provider requesterIdentity requestedName limit
      = (.ok source, provider') →
    Elf32DependencyProvider.resolveFor provider requesterIdentity requestedName limit'
      = (.ok source, provider')

/-- A provider of a chain also has to know nothing under a larger limit of what it knows
nothing under a smaller one. -/
def ProviderObject.Steady {P : Type} (object : ProviderObject P) : Prop :=
  ∀ (state : P) (requesterIdentity requestedName : ByteString) {limit limit' : ℕ},
    limit ≤ limit' → (object.resolveFor state requesterIdentity requestedName limit).1
      ≠ .error .failed →
    object.resolveFor state requesterIdentity requestedName limit'
      = object.resolveFor state requesterIdentity requestedName limit

section Providers

variable {P : Type}

lemma ProviderObject.Steady.provided {object : ProviderObject P} (h : object.Steady) :
    LibA32Android.Steady (Provided object) := by
  intro provider provider' requesterIdentity requestedName limit limit' source hle hanswer
  have hsource : (object.resolveFor provider.state requesterIdentity requestedName limit).1
      = .ok source := congrArg Prod.fst hanswer
  have hlarger := h provider.state requesterIdentity requestedName hle (by rw [hsource]; simp)
  have hsame : Elf32DependencyProvider.resolveFor provider requesterIdentity requestedName limit'
      = Elf32DependencyProvider.resolveFor provider requesterIdentity requestedName limit :=
    congrArg (fun answered => (answered.1, Provided.mk answered.2)) hlarger
  exact hsame.trans hanswer

lemma catalog_steady (catalog : Elf32DependencyCatalogProvider) :
    (catalog.object : ProviderObject P).Steady := by
  intro state requesterIdentity requestedName limit limit' hle hanswered
  change catalog.answer requestedName limit ≠ _ at hanswered
  change (catalog.answer requestedName limit', state) = (catalog.answer requestedName limit, state)
  rw [Elf32DependencyCatalogProvider.answer] at hanswered
  rw [Elf32DependencyCatalogProvider.answer, Elf32DependencyCatalogProvider.answer]
  rcases hfound : onlyMatch (·.requestedName = requestedName) some none catalog.entries with
    _ | _ | entry
  · rw [hfound]
  · rw [hfound]
  · rw [hfound] at hanswered ⊢
    dsimp only at hanswered ⊢
    by_cases hrefused : entry.identity = [] ∨ entry.image = [] ∨ entry.image.length > limit
    · exact absurd (if_pos hrefused) hanswered
    · have hlarger : ¬(entry.identity = [] ∨ entry.image = [] ∨ entry.image.length > limit') := by
        rintro (h | h | h)
        · exact hrefused (.inl h)
        · exact hrefused (.inr (.inl h))
        · exact hrefused (.inr (.inr (hle.trans_lt h)))
      rw [if_neg hrefused, if_neg hlarger]

/-- **A chain of steady providers is steady.** -/
lemma chain_steady {chain : Elf32DependencyProviderChain P}
    (h : ∀ object, some object ∈ chain.providers → object.Steady) : chain.object.Steady := by
  obtain ⟨providers⟩ := chain
  intro state requesterIdentity requestedName limit limit' hle hanswered
  change (askInTurn _ providers state).1 ≠ _ at hanswered
  change askInTurn _ providers state = askInTurn _ providers state
  change ∀ object, some object ∈ providers → object.Steady at h
  induction providers generalizing state with
  | nil => rfl
  | cons provider providers ih =>
      cases provider with
      | none => rfl
      | some provider =>
          have hsteady := h provider List.mem_cons_self state requesterIdentity requestedName hle
          have hrest := fun state hanswered => ih state hanswered fun object hobject =>
            h object (List.mem_cons_of_mem _ hobject)
          rw [askInTurn] at hanswered
          rw [askInTurn, askInTurn]
          rcases hasked : provider.resolveFor state requesterIdentity requestedName limit with
            ⟨(_ | _) | source, state'⟩
          · rw [hasked] at hanswered hsteady
            rw [hsteady (by simp)]
            exact hrest state' hanswered
          · rw [hasked] at hanswered
            exact absurd rfl hanswered
          · rw [hasked] at hsteady
            rw [hsteady (by simp)]

end Providers

/-! ### Requests -/

variable {P : Type} [Elf32DependencyProvider P]

section Requests

variable {options options' : Elf32DependencyResolveOptions} {totalImageBytes : ℕ}
  {provider provider' : P}

lemma resolveDependency_larger (hsteady : Steady P) (hbelow : options.Below options')
    (htotal : totalImageBytes ≤ options.maxTotalImageBytes) {requestedName : ByteString}
    {dependency : Elf32ResolvedDependency}
    (h : resolveDependency options requestedName totalImageBytes provider
      = (.ok dependency, provider')) :
    resolveDependency options' requestedName totalImageBytes provider
      = (.ok dependency, provider') := by
  have himage := hbelow.maxImageBytes
  have hmax := hbelow.maxTotalImageBytes
  have hlt := hbelow.maxTotalImageBytes_lt
  have hleft := subU64_of_le htotal (hmax.trans_lt hlt)
  have hleft' := subU64_of_le (htotal.trans hmax) hlt
  simp only [resolveDependency, hleft] at h
  simp only [resolveDependency, hleft', ← hbelow.requesterIdentity]
  split at h
  · cases h
  rename_i hname
  split at h
  · cases h
  split at h
  · cases h
  split at h
  · cases h
  rename_i source provider₁ hanswer
  split at h
  · cases h
  rename_i hcheck
  cases h
  simp only [checkSource, refuse_bind_ok_iff, refuse_ok_iff, hleft] at hcheck
  obtain ⟨hidentity, hempty, hrequest, hfits⟩ := hcheck
  rw [if_neg hname, if_neg (by omega), if_neg (by omega),
    hsteady (by omega : min options.maxImageBytes (options.maxTotalImageBytes - totalImageBytes)
      ≤ min options'.maxImageBytes (options'.maxTotalImageBytes - totalImageBytes)) hanswer]
  have hcheck' : checkSource options' (options'.maxTotalImageBytes - totalImageBytes)
      (min options'.maxImageBytes (options'.maxTotalImageBytes - totalImageBytes)) totalImageBytes
      source = .ok () := by
    simp only [checkSource, refuse_bind_ok_iff, refuse_ok_iff, hleft']
    exact ⟨hidentity, hempty, by omega, by omega⟩
  simp only [hcheck']

lemma resolveDependencies_larger (hsteady : Steady P) (hbelow : options.Below options')
    (htotal : totalImageBytes ≤ options.maxTotalImageBytes) {names : List ByteString}
    {dependencies : List Elf32ResolvedDependency}
    (h : resolveDependencies options names totalImageBytes provider
      = (.ok dependencies, provider')) :
    resolveDependencies options' names totalImageBytes provider
      = (.ok dependencies, provider') := by
  induction names generalizing totalImageBytes provider provider' dependencies with
  | nil => exact h
  | cons requestedName names ih =>
      rw [resolveDependencies, andThen_ok_iff] at h ⊢
      obtain ⟨dependency, provider₁, hone, hrest⟩ := h
      refine ⟨dependency, provider₁, resolveDependency_larger hsteady hbelow htotal hone, ?_⟩
      rw [andThen_ok_iff] at hrest ⊢
      obtain ⟨rest, provider₂, hrest, hret⟩ := hrest
      have hbytes := resolveDependency_bytes
        (hbelow.maxTotalImageBytes.trans_lt hbelow.maxTotalImageBytes_lt) htotal hone
      exact ⟨rest, provider₂, ih hbytes hrest, hret⟩

lemma resolveElf32Dependencies_larger (hsteady : Steady P) (hbelow : options.Below options')
    {strings : Elf32LinkerStrings} {dependencies : List Elf32ResolvedDependency}
    (h : resolveElf32Dependencies strings provider options = (.ok dependencies, provider')) :
    resolveElf32Dependencies strings provider options' = (.ok dependencies, provider')
      ∧ bytesOf dependencies ≤ options.maxTotalImageBytes := by
  rw [resolveElf32Dependencies] at h
  rw [resolveElf32Dependencies, ← hbelow.maxDependencies]
  split at h
  · cases h
  rename_i hcount
  rw [if_neg hcount]
  have hbytes := resolveDependencies_bytes
    (hbelow.maxTotalImageBytes.trans_lt hbelow.maxTotalImageBytes_lt) (Nat.zero_le _) h
  exact ⟨resolveDependencies_larger hsteady hbelow (Nat.zero_le _) h, by omega⟩

end Requests

/-! ### The steps of a load -/

namespace GraphLoadContext

variable {options options' : Elf32DependencyLoadOptions} {ctx ctx' : GraphLoadContext P}
  {index : ℕ}

omit [Elf32DependencyProvider P] in
/-- A load looks at the window only. -/
lemma loadAt_larger (hbelow : options.Below options') (requireDynamic : Bool) :
    ctx.loadAt options' index requireDynamic = ctx.loadAt options index requireDynamic := by
  have hplace : ∀ plan, placeObject ctx.memory (ctx.object index) options' plan
      = placeObject ctx.memory (ctx.object index) options plan := by
    intro plan
    rw [placeObject, placeObject, hbelow.placement]
  rw [loadAt, loadAt, loadObject, loadObject]
  simp only [hplace]

/-- The names of an object that was loaded, under a larger limit. -/
lemma buildElf32LinkerStrings_larger {m : MappedGuestMemory} {metadata : Elf32LinkerMetadata}
    (hmetadata : ValidatedMetadata m metadata) {limit limit' : UInt32} (hle : limit ≤ limit')
    {strings : Elf32LinkerStrings}
    (h : (buildElf32LinkerStrings metadata { maxStringBytes := limit }).under
      (GuestMemory.reads m) = .ok strings) :
    (buildElf32LinkerStrings metadata { maxStringBytes := limit' }).under (GuestMemory.reads m)
      = .ok strings := by
  have hcarries : Carries (GuestMemory.reads m) (fun _ => False) Eq
      (buildElf32LinkerStrings metadata { maxStringBytes := limit })
      (buildElf32LinkerStrings metadata { maxStringBytes := limit' }) := by
    rw [buildElf32LinkerStrings, buildElf32LinkerStrings]
    refine .ite (fun _ => .refl _) fun _ => ?_
    cases htable : metadata.stringTable with
    | none => exact .refl _
    | some table =>
        have hentry := readElf32StringTableEntry_carries (m := m)
          (hmetadata.stringTable table htable).1
        have hneeded : ∀ offsets, Carries (GuestMemory.reads m) (fun _ => False) Eq
            (readNeeded table { maxStringBytes := limit } offsets)
            (readNeeded table { maxStringBytes := limit' } offsets) := by
          intro offsets
          induction offsets with
          | nil => exact .refl _
          | cons offset offsets ih =>
              exact .bind_eq (hentry offset hle) fun name _ => .bind_eq ih fun names _ => .refl _
        dsimp only
        cases metadata.sonameOffset with
        | none => exact .bind_same fun _ _ => .bind_eq (hneeded _) fun _ _ => .refl _
        | some offset =>
            exact .bind_eq (hentry offset hle) fun _ _ => .bind_same fun _ _ =>
              .bind_eq (hneeded _) fun _ _ => .refl _
  obtain ⟨strings', hstrings', rfl⟩ := hcarries.ok strings h
  exact hstrings'

omit [Elf32DependencyProvider P] in
lemma inspectAt_larger (hbelow : options.Below options')
    (h : ctx.inspectAt options index = (.ok (), ctx')) :
    ctx.inspectAt options' index = (.ok (), ctx') := by
  suffices hobject : ∀ {object object'},
      inspectObject ctx.memory object options = (.ok (), object') →
      inspectObject ctx.memory object options' = (.ok (), object') by
    rw [inspectAt] at h ⊢
    rcases hinspect : inspectObject ctx.memory (ctx.object index) options with ⟨_ | _, object'⟩
    · rw [hinspect] at h
      cases h
    · rw [hinspect] at h
      rw [hobject hinspect]
      exact h
  intro object object' h
  rw [inspectObject] at h ⊢
  cases hsegment : object.load.dynamicSegment with
  | none =>
      rw [hsegment] at h
      exact h
  | some segment =>
      simp only [hsegment] at h ⊢
      split at h
      · cases h
      rename_i entries hentries
      split at h
      · cases h
      rename_i metadata hmetadata
      split at h
      · cases h
      rename_i strings hstrings
      have hlarger := buildElf32LinkerStrings_larger
        (buildElf32LinkerMetadata_validated hmetadata) hbelow.maxStringBytes hstrings
      simp only [hlarger]
      exact h

lemma acquireAt_larger (hsteady : Steady P) (hbelow : options.Below options')
    (hwithin : ctx.Within options) {dependencies : List Elf32ResolvedDependency}
    (h : ctx.acquireAt options index = (.ok dependencies, ctx')) :
    ctx.acquireAt options' index = (.ok dependencies, ctx') := by
  have hocc := UInt64.le_iff_toNat_le.mp hbelow.maxDependencyOccurrences
  have hmax := UInt64.le_iff_toNat_le.mp hbelow.maxTotalImageBytes
  have himage := UInt64.le_iff_toNat_le.mp hbelow.maxImageBytes
  have hlt : options'.maxTotalImageBytes.toNat < 2 ^ 64 := options'.maxTotalImageBytes.toNat_lt
  have hbytes := hwithin.imageBytes
  have hcounted := hwithin.occurrences
  simp only [acquireAt, subU64_of_le hcounted options.maxDependencyOccurrences.toNat_lt,
    subU64_of_le hbytes options.maxTotalImageBytes.toNat_lt] at h
  simp only [acquireAt, subU64_of_le (hcounted.trans hocc)
    options'.maxDependencyOccurrences.toNat_lt, subU64_of_le (hbytes.trans hmax) hlt]
  split at h
  · cases h
  rename_i hsmall
  rw [if_neg hsmall]
  split at h
  · cases h
  rename_i hfits
  rw [if_neg (by omega)]
  split at h
  · rename_i hnone
    rw [if_pos hnone]
    exact h
  rename_i hsome
  rw [if_neg hsome]
  split at h
  · cases h
  rename_i dependencies' provider' hresolve
  have hrequests : Elf32DependencyResolveOptions.Below
      ⟨UInt32.ofNat (ctx.object index).linkerStrings.needed.length, options.maxImageBytes.toNat,
        options.maxTotalImageBytes.toNat - ctx.totalImageBytes, (ctx.object index).identity⟩
      ⟨UInt32.ofNat (ctx.object index).linkerStrings.needed.length, options'.maxImageBytes.toNat,
        options'.maxTotalImageBytes.toNat - ctx.totalImageBytes, (ctx.object index).identity⟩ :=
    ⟨rfl, himage, Nat.sub_le_sub_right hmax _, (Nat.sub_le _ _).trans_lt hlt, rfl⟩
  obtain ⟨hresolve', htotal⟩ := resolveElf32Dependencies_larger hsteady hrequests hresolve
  change bytesOf dependencies' ≤ options.maxTotalImageBytes.toNat - ctx.totalImageBytes at htotal
  simp only [hresolve']
  rw [countAcquired_eq (by omega) dependencies' 0 (by omega)] at h
  rw [countAcquired_eq (by omega) dependencies' 0 (by omega)]
  exact h

/-! ### The recursion -/

omit [Elf32DependencyProvider P] in
lemma nameFailure_eq_ok {requestedName : ByteString}
    {nested : Except Elf32DependencyLoadFailure Unit × GraphLoadContext P} :
    nameFailure requestedName nested = (.ok (), ctx') ↔ nested = (.ok (), ctx') := by
  obtain ⟨_ | _, ctx⟩ := nested
  · simp [nameFailure]
  · exact Iff.rfl

/-- What `process` does from a context within the limits, when it succeeds, `process'` does
as well. -/
def LikeWithin (options : Elf32DependencyLoadOptions)
    (process process' : ℕ → GraphLoadContext P →
      Except Elf32DependencyLoadFailure Unit × GraphLoadContext P) : Prop :=
  ∀ target {ctx ctx' : GraphLoadContext P}, ctx.Within options →
    process target ctx = (.ok (), ctx') →
    process' target ctx = (.ok (), ctx') ∧ ctx'.Within options

variable {process process' : ℕ → GraphLoadContext P →
  Except Elf32DependencyLoadFailure Unit × GraphLoadContext P}

lemma processDependency_larger (hbelow : options.Below options')
    (hprocess : LikeWithin options process process') (hwithin : ctx.Within options)
    {dependency : Elf32ResolvedDependency} (hok : dependency.Ok)
    (h : ctx.processDependency options process index dependency = (.ok (), ctx')) :
    ctx.processDependency options' process' index dependency = (.ok (), ctx')
      ∧ ctx'.Within options := by
  have hrule := within_rule (P := P) (Q := fun _ _ => True) (fun _ _ _ _ _ _ => trivial) options
  have hobjects := UInt32.le_iff_toNat_le.mp hbelow.maxObjects
  have hround := dependencyRound options process index dependency ctx
  generalize nestedCall options index dependency ctx = nested at hround
  generalize ctx.processDependency options process index dependency = result at hround h
  cases hround with
  | mismatch => cases h
  | full => cases h
  | reused target hlookup hne himage hstate =>
      cases h
      rw [withKnown] at hstate ⊢
      refine ⟨?_, (hrule.known ⟨hwithin, trivial⟩ trivial hok hlookup).1⟩
      simp only [processDependency, hlookup, Option.getD_some, ne_eq, hne, not_false_eq_true,
        if_true, himage, not_true_eq_false, if_false, hstate]
  | resumed target hlookup hne himage hstate =>
      have hnested := nameFailure_eq_ok.mp h
      obtain ⟨hlike, hafter⟩ := hprocess target
        (hrule.known ⟨hwithin, trivial⟩ trivial hok hlookup).1 hnested
      rw [withKnown] at hstate hlike
      refine ⟨?_, hafter⟩
      simp only [processDependency, hlookup, Option.getD_some, ne_eq, hne, not_false_eq_true,
        if_true, himage, not_true_eq_false, if_false, hstate, hlike, nameFailure]
  | added hlookup hmax =>
      have hnested := nameFailure_eq_ok.mp h
      obtain ⟨hlike, hafter⟩ := hprocess ctx.graph.objects.length
        (hrule.added ⟨hwithin, trivial⟩ trivial hok hlookup hmax).1 hnested
      rw [withNew] at hlike
      refine ⟨?_, hafter⟩
      simp only [processDependency, hlookup, ne_eq, not_true_eq_false, if_false,
        Nat.not_le.mpr (hmax.trans_le hobjects), hlike, nameFailure]

lemma processDependencies_larger (hbelow : options.Below options')
    (hprocess : LikeWithin options process process') (hwithin : ctx.Within options)
    {dependencies : List Elf32ResolvedDependency} (hok : ∀ d ∈ dependencies, d.Ok)
    (h : ctx.processDependencies options process index dependencies = (.ok (), ctx')) :
    ctx.processDependencies options' process' index dependencies = (.ok (), ctx')
      ∧ ctx'.Within options := by
  induction dependencies generalizing ctx with
  | nil =>
      cases h
      exact ⟨rfl, hwithin⟩
  | cons dependency dependencies ih =>
      obtain ⟨hd, hrest⟩ := List.forall_mem_cons.mp hok
      rw [processDependencies, andThen_ok_iff] at h
      obtain ⟨⟨⟩, ctx₁, hone, h⟩ := h
      obtain ⟨hone', hwithin'⟩ := processDependency_larger hbelow hprocess hwithin hd hone
      obtain ⟨hloop, hafter⟩ := ih hwithin' hrest h
      refine ⟨?_, hafter⟩
      rw [processDependencies, hone']
      exact hloop

/-- **The recursion under larger limits**, of which the depth is one. -/
theorem processObject_larger (hsteady : Steady P) (hbelow : options.Below options')
    {levels levels' : ℕ} (hlevels : levels ≤ levels') (requireDynamic : Bool) :
    LikeWithin (P := P) options
      (fun target ctx => processObject options levels target requireDynamic ctx)
      (fun target ctx => processObject options' levels' target requireDynamic ctx) := by
  have hrule := within_rule (P := P) (Q := fun _ _ => True) (fun _ _ _ _ _ _ => trivial) options
  induction levels generalizing levels' requireDynamic with
  | zero =>
      intro target ctx ctx' hwithin h
      dsimp only at h ⊢
      rw [processObject] at h
      split at h
      · rename_i hstate
        cases h
        refine ⟨?_, hwithin⟩
        cases levels' with
        | zero => rw [processObject, if_pos hstate]
        | succ levels' => rw [processObject, if_pos hstate]
      · cases h
  | succ levels ih =>
      obtain ⟨levels', rfl⟩ : ∃ k, levels' = k + 1 := ⟨levels' - 1, by omega⟩
      intro target ctx ctx' hwithin h
      dsimp only at h ⊢
      rw [processObject] at h ⊢
      split at h
      · rename_i hstate
        cases h
        exact ⟨if_pos hstate, hwithin⟩
      rename_i hstate
      rw [if_neg hstate]
      have hbegun := (hrule.begun ⟨hwithin, trivial⟩ (not_not.mp hstate)).1
      rw [andThen_ok_iff] at h
      obtain ⟨⟨⟩, ctx₁, hload, h⟩ := h
      have h₁ := (hrule.loaded ⟨hbegun, trivial⟩ trivial hload).1
      rw [andThen_ok_iff] at h
      obtain ⟨⟨⟩, ctx₂, hinspect, h⟩ := h
      have h₂ : Leaves _ _ (ctx₁.inspectAt options target) :=
        hrule.inspected ⟨h₁, trivial⟩ trivial
      rw [hinspect] at h₂
      rw [andThen_ok_iff] at h
      obtain ⟨dependencies, ctx₃, hacquire, h⟩ := h
      have h₃ : Leaves _ _ (ctx₂.acquireAt options target) := hrule.acquired h₂ trivial
      rw [hacquire] at h₃
      rw [andThen_ok_iff] at h
      obtain ⟨⟨⟩, ctx₄, hloop, h⟩ := h
      obtain ⟨hloop', h₄⟩ := processDependencies_larger hbelow
        (ih (Nat.le_of_succ_le_succ hlevels) true) h₃.1.1 h₃.2 hloop
      cases h
      refine ⟨?_, (hrule.ended ⟨h₄, trivial⟩ trivial).1⟩
      simp only [loadAt_larger hbelow, hload, andThen, inspectAt_larger hbelow hinspect,
        acquireAt_larger hsteady hbelow h₂.1 hacquire, hloop']

end GraphLoadContext

/-! ### The calls -/

section Calls

variable {options options' : Elf32DependencyLoadOptions} {root : Elf32DependencyLoadSource}

lemma checkRoot_larger (hbelow : options.Below options') (h : checkRoot root options = .ok ()) :
    checkRoot root options' = .ok () := by
  have hobjects := UInt32.le_iff_toNat_le.mp hbelow.maxObjects
  have himage := UInt64.le_iff_toNat_le.mp hbelow.maxImageBytes
  have htotal := UInt64.le_iff_toNat_le.mp hbelow.maxTotalImageBytes
  have hpos := (checkRoot_limits h).1
  simp only [checkRoot, refuse_bind_ok_iff, refuse_ok_iff] at h ⊢
  obtain ⟨-, hidentity, hempty, hone, hall⟩ := h
  refine ⟨fun hzero => ?_, hidentity, hempty, by omega, by omega⟩
  rw [hzero] at hobjects
  exact absurd (hpos.trans_le hobjects) (lt_irrefl 0)

/-- The run of a call under larger limits, from a context within the smaller ones. -/
lemma processObject_of_larger (hsteady : Steady P) (hbelow : options.Below options') {base : ℕ}
    {ctx ctx' : GraphLoadContext P} (hwithin : ctx.Within options)
    (h : processObject options (options.maxDepth.toNat + 1) base false ctx = (.ok (), ctx')) :
    processObject options' (options'.maxDepth.toNat + 1) base false ctx = (.ok (), ctx') :=
  (processObject_larger hsteady hbelow
    (Nat.succ_le_succ (UInt32.le_iff_toNat_le.mp hbelow.maxDepth)) false base hwithin h).1

/-- **Ceilings never change what a load gives.**  When `load_elf32_dependency_graph` or
`append_elf32_link_map_root` succeeds, the same call with larger limits has the same result
and leaves the same link map, memory and provider behind, for every provider whose
deliveries do not depend on the limit that they respect. -/
theorem load_of_larger_ceilings (hsteady : Steady P) (memory : MappedGuestMemory)
    (root : Elf32DependencyLoadSource) (provider : P)
    {options options' : Elf32DependencyLoadOptions} (hbelow : options.Below options') :
    ((loadElf32DependencyGraph memory root provider options).1.failure = none →
      loadElf32DependencyGraph memory root provider options'
        = loadElf32DependencyGraph memory root provider options)
    ∧ ∀ (linkMap : Elf32LinkMap) (rootPolicy : Elf32LinkMapRootPolicy),
      (appendElf32LinkMapRoot memory linkMap root provider options rootPolicy).1.failure = none →
        appendElf32LinkMapRoot memory linkMap root provider options' rootPolicy
          = appendElf32LinkMapRoot memory linkMap root provider options rootPolicy := by
  have hmax := UInt32.le_iff_toNat_le.mp hbelow.maxObjects
  constructor
  · intro h
    cases hroot : checkRoot root options with
    | error failure =>
        rw [loadElf32DependencyGraph, hroot] at h
        cases h
    | ok _ =>
        have hstart := rootContext_started memory provider hroot
        have hwithin : (rootContext memory root provider).Within options :=
          ⟨hstart.occurrences.trans_le (Nat.zero_le _), hstart.imageBytes, hstart.objects,
            hstart.states⟩
        rw [loadElf32DependencyGraph_of_ok hroot] at h ⊢
        rw [loadElf32DependencyGraph_of_ok (checkRoot_larger hbelow hroot)]
        rcases hrun : processObject options (options.maxDepth.toNat + 1) 0 false
          (rootContext memory root provider) with ⟨failure | _, ctx⟩
        · rw [hrun] at h
          cases h
        · rw [processObject_of_larger hsteady hbelow hwithin hrun]
  · intro linkMap rootPolicy h
    rw [appendElf32LinkMapRoot] at h ⊢
    rw [appendElf32LinkMapRoot]
    cases hroot : checkRoot root options with
    | error failure =>
        rw [hroot] at h
        cases h
    | ok _ =>
        rw [hroot] at h
        rw [checkRoot_larger hbelow hroot]
        dsimp only at h ⊢
        split at h
        · cases h
        rename_i hobjects
        rw [if_neg hobjects, if_neg (by omega)]
        cases hcheck : checkLinkMap linkMap with
        | error failure => rfl
        | ok index =>
            rw [hcheck] at h
            dsimp only at h ⊢
            cases hlookup : index.objectIndices.lookup root.identity with
            | some rootIndex => rfl
            | none =>
                rw [hlookup] at h
                dsimp only at h ⊢
                split at h
                · cases h
                rename_i hroom
                rw [if_neg hroom, if_neg (by omega)]
                have hwithin : (appendContext memory linkMap index root provider).Within options :=
                  ⟨Nat.zero_le _, (checkRoot_limits hroot).2, by simp [appendContext]; omega,
                    by simp [appendContext]⟩
                rcases hrun : processObject options (options.maxDepth.toNat + 1)
                  linkMap.graph.objects.length false
                  (appendContext memory linkMap index root provider) with ⟨failure | _, ctx⟩
                · rw [hrun] at h
                  cases h
                · rw [processObject_of_larger hsteady hbelow hwithin hrun]

end Calls

/-- A catalog in a chain, and limits that the two objects of the graph reach. -/
theorem load_of_larger_ceilings_catalog :
    let chain : Elf32DependencyProviderChain Unit :=
      ⟨[some (Elf32DependencyCatalogProvider.mk [⟨[98], [98], needyImage⟩]).object]⟩
    let load := loadElf32DependencyGraph vacantMemory ⟨[97], needyImage⟩
      (Provided.mk () : Provided chain.object)
    let narrowOptions := { wideOptions with maxObjects := 2, maxDepth := 1 }
    (load narrowOptions).1.graph.objects.length = 2 ∧ load wideOptions = load narrowOptions := by
  intro chain load narrowOptions
  have hsteady : chain.object.Steady := chain_steady fun object hobject => by
    obtain rfl := Option.some.inj (List.mem_singleton.mp hobject)
    exact catalog_steady _
  have hbelow : narrowOptions.Below wideOptions := by constructor <;> decide
  exact ⟨by decide +kernel, (load_of_larger_ceilings hsteady.provided vacantMemory
    ⟨[97], needyImage⟩ (Provided.mk ()) hbelow).1 (by decide +kernel)⟩

end LibA32Android

/-
Acquisition of dependency images (`elf/elf32_dependency_resolver.h`,
`elf/linking/elf32_dependency_resolver.cpp`).

A provider is any state machine that answers requests by name; it has no access
to guest memory.  `resolveElf32Dependencies` asks it for each `DT_NEEDED` name
in order, within the byte limits, and `resolveElf32Dependencies_ok` says what
every accepted answer satisfies.
-/
import LibA32Android.Elf.LinkerStrings

namespace LibA32Android

open Foundations

/-- `Elf32DependencyProviderError`, without `None`. -/
inductive Elf32DependencyProviderError where
  | notFound
  | failed
  deriving DecidableEq, Repr

/-- `Elf32DependencySource`. -/
structure Elf32DependencySource where
  identity : ByteString
  image : List UInt8
  deriving DecidableEq, Repr

/-- `Elf32DependencyProvider`: a state and its `resolve_for`. -/
class Elf32DependencyProvider (P : Type) where
  resolveFor : P → ByteString → ByteString → ℕ →
    Except Elf32DependencyProviderError Elf32DependencySource × P

/-- `Elf32DependencyResolveError`, without `None`. -/
inductive Elf32DependencyResolveError where
  | tooManyDependencies
  | emptyDependencyName
  | dependencyNotFound
  | providerFailed
  | emptyProviderIdentity
  | emptyDependencyImage
  | imageTooLarge
  | totalImageBytesExceeded
  deriving DecidableEq, Repr

/-- `translate_provider_error`. -/
def translateProviderError : Elf32DependencyProviderError → Elf32DependencyResolveError
  | .notFound => .dependencyNotFound
  | .failed => .providerFailed

/-- `Elf32DependencyResolveOptions`; the byte limits are `uint64_t` values. -/
structure Elf32DependencyResolveOptions where
  maxDependencies : UInt32
  maxImageBytes : ℕ
  maxTotalImageBytes : ℕ
  requesterIdentity : ByteString := []
  deriving DecidableEq, Repr

/-- `Elf32ResolvedDependency`. -/
structure Elf32ResolvedDependency where
  requestedName : ByteString
  identity : ByteString
  image : List UInt8
  deriving DecidableEq, Repr

section Resolve

variable {P : Type} [Elf32DependencyProvider P]

/-- The checks on a provider's answer. -/
def checkSource (options : Elf32DependencyResolveOptions) (remainingTotal requestLimit : ℕ)
    (totalImageBytes : ℕ) (source : Elf32DependencySource) :
    Except Elf32DependencyResolveError Unit := do
  refuse (source.identity = []) .emptyProviderIdentity
  refuse (source.image = []) .emptyDependencyImage
  refuse (source.image.length > requestLimit)
    (if remainingTotal < options.maxImageBytes then .totalImageBytesExceeded
      else .imageTooLarge)
  refuse (source.image.length > subU64 options.maxTotalImageBytes totalImageBytes)
    .totalImageBytesExceeded

/-- One round of the request loop. -/
def resolveDependency (options : Elf32DependencyResolveOptions) (requestedName : ByteString)
    (totalImageBytes : ℕ) (provider : P) :
    Except Elf32DependencyResolveError Elf32ResolvedDependency × P :=
  let remainingTotal := subU64 options.maxTotalImageBytes totalImageBytes
  if requestedName = [] then (.error .emptyDependencyName, provider)
  else if remainingTotal = 0 then (.error .totalImageBytesExceeded, provider)
  else if options.maxImageBytes = 0 then (.error .imageTooLarge, provider)
  else
    let requestLimit := min options.maxImageBytes remainingTotal
    match Elf32DependencyProvider.resolveFor provider options.requesterIdentity requestedName
        requestLimit with
    | (.error e, provider) => (.error (translateProviderError e), provider)
    | (.ok source, provider) =>
      match checkSource options remainingTotal requestLimit totalImageBytes source with
      | .error e => (.error e, provider)
      | .ok () =>
        (.ok { requestedName, identity := source.identity, image := source.image }, provider)

/-- The request loop over the names left. -/
def resolveDependencies (options : Elf32DependencyResolveOptions) :
    List ByteString → ℕ → P →
      Except Elf32DependencyResolveError (List Elf32ResolvedDependency) × P
  | [], _, provider => (.ok [], provider)
  | requestedName :: names, totalImageBytes, provider =>
    andThen (resolveDependency options requestedName totalImageBytes provider)
      fun dependency provider =>
        andThen (resolveDependencies options names
            (totalImageBytes + dependency.image.length) provider)
          fun dependencies provider => (.ok (dependency :: dependencies), provider)

/-- `resolve_elf32_dependencies`. -/
def resolveElf32Dependencies (strings : Elf32LinkerStrings) (provider : P)
    (options : Elf32DependencyResolveOptions) :
    Except Elf32DependencyResolveError (List Elf32ResolvedDependency) × P :=
  if strings.needed.length > options.maxDependencies.toNat then
    (.error .tooManyDependencies, provider)
  else resolveDependencies options strings.needed 0 provider

/-- An accepted answer: the name asked for and a non-empty identity and image. -/
def Elf32ResolvedDependency.Ok (dependency : Elf32ResolvedDependency) : Prop :=
  dependency.requestedName ≠ [] ∧ dependency.identity ≠ [] ∧ dependency.image ≠ []

lemma resolveDependency_ok {options : Elf32DependencyResolveOptions} {requestedName : ByteString}
    {totalImageBytes : ℕ} {provider provider' : P} {dependency : Elf32ResolvedDependency}
    (h : resolveDependency options requestedName totalImageBytes provider
      = (.ok dependency, provider')) :
    dependency.Ok ∧ dependency.requestedName = requestedName := by
  simp only [resolveDependency] at h
  split at h
  · cases h
  rename_i hname
  split at h
  · cases h
  split at h
  · cases h
  split at h
  · cases h
  rename_i source provider₁ hanswer
  split at h
  · cases h
  rename_i hcheck
  cases h
  simp only [checkSource, refuse_bind_ok_iff, refuse_ok_iff] at hcheck
  exact ⟨⟨hname, hcheck.1, hcheck.2.1⟩, rfl⟩

/-- The accepted answers, in the order of the names. -/
lemma resolveElf32Dependencies_ok {strings : Elf32LinkerStrings} {provider provider' : P}
    {options : Elf32DependencyResolveOptions} {dependencies : List Elf32ResolvedDependency}
    (h : resolveElf32Dependencies strings provider options = (.ok dependencies, provider')) :
    (∀ dependency ∈ dependencies, dependency.Ok)
      ∧ dependencies.map (·.requestedName) = strings.needed := by
  rw [resolveElf32Dependencies] at h
  split at h
  · cases h
  generalize strings.needed = names at h
  generalize 0 = totalImageBytes at h
  induction names generalizing totalImageBytes provider dependencies with
  | nil =>
      cases h
      exact ⟨fun _ hd => absurd hd List.not_mem_nil, rfl⟩
  | cons requestedName names ih =>
      rw [resolveDependencies, andThen_ok_iff] at h
      obtain ⟨dependency, provider₁, hone, hrest⟩ := h
      rw [andThen_ok_iff] at hrest
      obtain ⟨rest, provider₂, hrest, hret⟩ := hrest
      cases hret
      obtain ⟨hok, hname⟩ := resolveDependency_ok hone
      obtain ⟨hall, hnames⟩ := ih _ hrest
      exact ⟨List.forall_mem_cons.mpr ⟨hok, hall⟩, by rw [List.map_cons, hname, hnames]⟩

end Resolve

end LibA32Android

/-
The platform provider (`compat/a32_android_platform_provider.h`, `.cpp`,
`compat/a32_android_log_shim.h`).

* `A32AndroidPlatformProvider`: the `liblog.so` of the runtime, for the requesters that a
  policy lets have it;
* `applicationFirst`: the libraries of an application, with the platform behind them;
* `PlatformAccess`: what a requester may get from that chain, by the calls of its providers;
* `platform_access`: over every session, each edge of the link map leads to a library of the
  application, or to the `liblog.so` of the runtime that the policy has allowed to the object
  that the edge starts from, in the state in which it was asked.
-/
import LibA32Android.Elf.DependencyProviders
import LibA32Android.Elf.EdgeOrigin
import LibA32Android.Runtime.Session

namespace LibA32Android

open Foundations

variable {P H : Type}

/-! ### The provider -/

/-- `kA32AndroidLogShimSoname`, which is `liblog.so`. -/
def kA32AndroidLogShimSoname : ByteString :=
  [0x6c, 0x69, 0x62, 0x6c, 0x6f, 0x67, 0x2e, 0x73, 0x6f]

/-- `kA32AndroidLogShimIdentity`, which is `liba32android-compat-liblog`. -/
def kA32AndroidLogShimIdentity : ByteString :=
  [0x6c, 0x69, 0x62, 0x61, 0x33, 0x32, 0x61, 0x6e, 0x64, 0x72, 0x6f, 0x69, 0x64, 0x2d,
    0x63, 0x6f, 0x6d, 0x70, 0x61, 0x74, 0x2d, 0x6c, 0x69, 0x62, 0x6c, 0x6f, 0x67]

/-- `make_a32_android_log_shim_catalog_entry`. -/
def makeA32AndroidLogShimCatalogEntry (image : List UInt8) : Elf32DependencyCatalogEntry where
  requestedName := kA32AndroidLogShimSoname
  identity := kA32AndroidLogShimIdentity
  image := image

/-- `A32AndroidPlatformAccessDecision`. -/
inductive A32AndroidPlatformAccessDecision where
  | allow
  | notFound
  | failed
  deriving DecidableEq

/-- `A32AndroidPlatformAccessPolicy`, with states in `P`. -/
structure A32AndroidPlatformAccessPolicy (P : Type) where
  decide : P → ByteString → ByteString → A32AndroidPlatformAccessDecision × P

/-- `A32AndroidPlatformProvider`. -/
structure A32AndroidPlatformProvider (P : Type) where
  liblogImage : List UInt8
  policy : A32AndroidPlatformAccessPolicy P

namespace A32AndroidPlatformProvider

/-- `catalog_`. -/
def catalog (provider : A32AndroidPlatformProvider P) : Elf32DependencyCatalogProvider where
  entries := [makeA32AndroidLogShimCatalogEntry provider.liblogImage]

/-- `A32AndroidPlatformProvider::resolve_for`. -/
def resolveFor (provider : A32AndroidPlatformProvider P) (state : P)
    (requesterIdentity requestedName : ByteString) (maxImageBytes : ℕ) : ProviderAnswer × P :=
  if requestedName ≠ kA32AndroidLogShimSoname then (.error .notFound, state)
  else
    match provider.policy.decide state requesterIdentity requestedName with
    | (.allow, state) => (provider.catalog.answer requestedName maxImageBytes, state)
    | (.notFound, state) => (.error .notFound, state)
    | (.failed, state) => (.error .failed, state)

/-- The provider; without a requester, the policy is asked for an empty identity. -/
def object (provider : A32AndroidPlatformProvider P) : ProviderObject P where
  resolve state requestedName maxImageBytes :=
    provider.resolveFor state [] requestedName maxImageBytes
  resolveFor := provider.resolveFor

/-- **The platform gives its `liblog.so` to those that the policy allows.** -/
lemma resolveFor_eq_ok {provider : A32AndroidPlatformProvider P} {state : P}
    {requesterIdentity requestedName : ByteString} {maxImageBytes : ℕ}
    {source : Elf32DependencySource}
    (h : (provider.resolveFor state requesterIdentity requestedName maxImageBytes).1 = .ok source) :
    requestedName = kA32AndroidLogShimSoname
      ∧ (provider.policy.decide state requesterIdentity requestedName).1 = .allow
      ∧ source = ⟨kA32AndroidLogShimIdentity, provider.liblogImage⟩ := by
  rw [resolveFor] at h
  split at h
  · cases h
  rename_i hname
  rcases hdecided : provider.policy.decide state requesterIdentity requestedName with
    ⟨_ | _ | _, state'⟩
  · rw [hdecided] at h
    obtain ⟨entry, hentry, rfl⟩ := Elf32DependencyCatalogProvider.answer_eq_ok h
    have hmem : entry ∈ provider.catalog.matching requestedName := by
      rw [hentry]
      exact List.mem_singleton_self _
    have hshim : entry = makeA32AndroidLogShimCatalogEntry provider.liblogImage :=
      List.mem_singleton.mp (List.mem_filter.mp hmem).1
    rw [hshim]
    exact ⟨not_not.mp hname, rfl, rfl⟩
  · rw [hdecided] at h
    cases h
  · rw [hdecided] at h
    cases h

end A32AndroidPlatformProvider

/-! ### Application first -/

/-- The libraries of an application, and the platform for what they lack. -/
def applicationFirst (apps : Elf32DependencyCatalogProvider)
    (platform : A32AndroidPlatformProvider P) : Elf32DependencyProviderChain P where
  providers := [some apps.object, some platform.object]

/-- The platform gives its `liblog.so` in a call, and the policy allows it to the requester in
the state of that call. -/
structure A32AndroidPlatformProvider.Granted (platform : A32AndroidPlatformProvider P)
    (call : ProviderCall P) : Prop where
  name : call.request.requestedName = kA32AndroidLogShimSoname
  allowed : (platform.policy.decide call.state call.request.requesterIdentity
    call.request.requestedName).1 = .allow
  source : call.request.answer = .ok ⟨kA32AndroidLogShimIdentity, platform.liblogImage⟩

/-- What a requester may get for a name, after some calls of the providers: the only library of
the application with that name; or, if there is none, what the platform, at place `1`, has
granted to that requester in one of the calls. -/
def PlatformAccess (apps : Elf32DependencyCatalogProvider)
    (platform : A32AndroidPlatformProvider P) (calls : List (ProviderCall P))
    (requesterIdentity requestedName : ByteString) (source : Elf32DependencySource) : Prop :=
  (∃ entry, apps.matching requestedName = [entry] ∧ source = ⟨entry.identity, entry.image⟩)
    ∨ apps.matching requestedName = [] ∧ ∃ call ∈ calls, call.place = 1
      ∧ call.request.requesterIdentity = requesterIdentity
      ∧ call.request.requestedName = requestedName ∧ call.request.answer = .ok source
      ∧ platform.Granted call

section Access

variable {apps : Elf32DependencyCatalogProvider} {platform : A32AndroidPlatformProvider P}
  {call : ProviderCall P} {request : ProviderRequest} {round : List (ProviderCall P)}
  {source : Elf32DependencySource}

lemma PlatformAccess.mono {calls calls' : List (ProviderCall P)}
    {requesterIdentity requestedName : ByteString} (hcalls : calls ⊆ calls')
    (h : PlatformAccess apps platform calls requesterIdentity requestedName source) :
    PlatformAccess apps platform calls' requesterIdentity requestedName source := by
  rcases h with happs | ⟨hnone, call, hcall, hgranted⟩
  · exact .inl happs
  · exact .inr ⟨hnone, call, hcalls hcall, hgranted⟩

/-- **What the platform gives it has granted.** -/
lemma granted_of_ok
    (hcall : call.request.answer = (platform.resolveFor call.state call.request.requesterIdentity
      call.request.requestedName call.request.requestLimit).1)
    (hsource : call.request.answer = .ok source) : platform.Granted call := by
  obtain ⟨hname, hallowed, rfl⟩ :=
    A32AndroidPlatformProvider.resolveFor_eq_ok (hcall.symm.trans hsource)
  exact ⟨hname, hallowed, hsource⟩

/-- The application is asked first. -/
lemma Consulted.apps_answer
    (h : Consulted 0 (applicationFirst apps platform).providers request round)
    (hcall : call ∈ round) (hplace : call.place = 0) :
    call.request.answer = apps.answer request.requestedName request.requestLimit := by
  obtain ⟨index, provider, hindex, hprovider, hanswer⟩ := h.answered call hcall
  obtain rfl : index = 0 := by omega
  cases hprovider
  exact hanswer

/-- The platform is asked second. -/
lemma ConsultedAll.granted {requests : List ProviderRequest} {calls : List (ProviderCall P)}
    (h : ConsultedAll (applicationFirst apps platform).providers requests calls)
    (hcall : call ∈ calls) (hplace : call.place = 1) (hsource : call.request.answer = .ok source) :
    platform.Granted call := by
  obtain ⟨provider, hprovider, hanswer⟩ := h.answered hcall
  rw [hplace] at hprovider
  cases hprovider
  exact granted_of_ok hanswer hsource

/-- **One request to the chain.** -/
lemma Consulted.access
    (h : Consulted 0 (applicationFirst apps platform).providers request round)
    (hsource : request.answer = .ok source) :
    PlatformAccess apps platform round request.requesterIdentity request.requestedName
      source := by
  have hknown : request.answer ≠ .error .notFound := by
    rw [hsource]
    exact fun h => by cases h
  have hlength : round.length ≤ 2 := h.length_le
  rcases h.decided hknown with ⟨call, hlast, hcall⟩ | ⟨-, hfailed, -⟩
  · rcases round with _ | ⟨first, _ | ⟨second, _ | ⟨third, rest⟩⟩⟩
    · cases hlast
    · -- the application has an answer
      obtain rfl : first = call := by simpa using hlast
      have hplace : first.place = 0 := by simpa using h.places
      have happs := h.apps_answer (List.mem_singleton_self first) hplace
      rw [hcall, hsource] at happs
      exact .inl (Elf32DependencyCatalogProvider.answer_eq_ok happs.symm)
    · -- the application has none, and the platform has one
      obtain rfl : second = call := by simpa using hlast
      obtain ⟨hfirst, hsecond⟩ : first.place = 0 ∧ second.place = 1 := by
        simpa [List.range'] using h.places
      have hnone := h.passed first (List.mem_singleton_self first)
      rw [h.apps_answer List.mem_cons_self hfirst] at hnone
      have hmem : second ∈ [first, second] :=
        List.mem_cons_of_mem _ (List.mem_singleton_self second)
      obtain ⟨-, hsame⟩ := h.same second hmem
      have hgranted : platform.Granted second :=
        ConsultedAll.granted ⟨[[first, second]], by simp, .cons h .nil⟩ hmem hsecond
          (hcall.trans hsource)
      refine .inr ⟨Elf32DependencyCatalogProvider.answer_eq_notFound hnone, second, hmem, hsecond,
        ?_, ?_, hcall.trans hsource, hgranted⟩
      · rw [hsame]
      · rw [hsame]
    · simp at hlength
  · rw [hsource] at hfailed
    cases hfailed

lemma applicationFirst_answers :
    Answers (TracedChain (applicationFirst apps platform))
      fun traced => PlatformAccess apps platform traced.calls where
  answered traced requesterIdentity requestedName requestLimit source hanswer := by
    obtain ⟨round, hcalls, hconsulted⟩ := tracedChain_resolveFor traced requesterIdentity
      requestedName requestLimit
    rw [hcalls]
    exact .mono (List.subset_append_right _ _) (hconsulted.access hanswer)
  kept traced requesterIdentity requestedName requestLimit := by
    obtain ⟨round, hcalls, -⟩ := tracedChain_resolveFor traced requesterIdentity requestedName
      requestLimit
    rw [hcalls]
    exact fun _ _ _ => .mono (List.subset_append_left _ _)

end Access

/-- No call takes away what the provider has answered. -/
lemma perform_kept {Q : Type} [Elf32DependencyProvider Q]
    {J : Q → ByteString → ByteString → Elf32DependencySource → Prop} (engine : CallbackEngine)
    (program : ServiceProgram H) (hJ : Answers Q J) (s : Session Q H) (call : RuntimeCall) :
    J s.provider ≤ J (s.perform engine program call).provider :=
  perform_provider engine program (R := fun provider => J s.provider ≤ J provider)
    (fun provider _ requesterIdentity requestedName requestLimit h =>
      h.trans (hJ.kept provider requesterIdentity requestedName requestLimit)) s call (le_refl _)

/-- **No object gets a library that is not its to have.**  Let the dependencies of a session
be provided application first, with a record of the calls of the two providers, which changes
nothing.  After every sequence of calls of the runtime, whatever the platform has given, the
policy had allowed to the requester in the state in which it was asked.  Each edge of the link
map, and each edge of a graph that is loaded then, leads to the only library of the application
with the requested name; or there is none, and it leads to the `liblog.so` that the platform
has so given to the object that the edge starts from. -/
theorem platform_access (apps : Elf32DependencyCatalogProvider)
    (platform : A32AndroidPlatformProvider P) (engine : CallbackEngine)
    (program : ServiceProgram H) (memory : MappedGuestMemory) (state : P) (handlerState : H)
    (calls : List RuntimeCall) :
    let chain := applicationFirst apps platform
    let s := ({ memory, provider := .start chain state, handlerState } :
      Session (TracedChain chain) H).run engine program calls
    ({ memory, provider := ⟨state⟩, handlerState } : Session (Provided chain.object) H).run
        engine program calls = s.mapProvider TracedChain.erase
      ∧ (∀ call ∈ s.provider.calls, call.place = 1 → ∀ source,
        call.request.answer = .ok source → platform.Granted call)
      ∧ Originates (PlatformAccess apps platform s.provider.calls) s.linkMap.graph.objects
      ∧ ∀ root options,
        let loaded := loadElf32DependencyGraph s.memory root s.provider options
        Originates (PlatformAccess apps platform loaded.2.2.calls) loaded.1.graph.objects := by
  intro chain s
  have hanswers : Answers (TracedChain chain)
      fun traced => PlatformAccess apps platform traced.calls := applicationFirst_answers
  have hstart : (TracedChain.start chain state).Agrees := ⟨[], rfl, .nil⟩
  have hagrees : s.provider.Agrees :=
    Session.run_keeps (K := fun s : Session (TracedChain chain) H => s.provider.Agrees)
      (fun s call h => perform_provider engine program tracedChain_counts s call h) hstart calls
  refine ⟨?_, fun call hcall hplace source => hagrees.granted hcall hplace, ?_,
    fun root options => loadElf32DependencyGraph_originates hanswers s.memory root s.provider
      options⟩
  · exact run_mapProvider engine program tracedChain_hom
      { memory, provider := .start chain state, handlerState } calls
  · refine Session.run_keeps
      (K := fun s : Session (TracedChain chain) H =>
        Originates (PlatformAccess apps platform s.provider.calls) s.linkMap.graph.objects)
      (fun s call h => ?_) (fun _ hobject => absurd hobject List.not_mem_nil) calls
    rcases perform_linkMap engine program s call with hsame | ⟨root, options, rootPolicy, rfl⟩
    · rw [hsame]
      exact h.mono (perform_kept engine program hanswers s call)
    · exact appendElf32LinkMapRoot_originates hanswers s.memory h root options rootPolicy

end LibA32Android

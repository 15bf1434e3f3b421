/-
The providers of the library (`elf/elf32_dependency_resolver.h`,
`elf/linking/elf32_dependency_resolver.cpp`).

* `ProviderObject`: the base class, with `resolve` and with `resolve_for` in terms of it, and
  `Provided`: the state of an object, as the loader has it;
* `Elf32DependencyProviderChain`: providers that are asked in turn; chains in a chain can be
  replaced by their providers (`chain_flatten`);
* `Elf32DependencyCatalogProvider`: a list of images by name;
* `ProviderCall`, `ProviderObject.traced`: the calls of the methods of a provider, each with the
  state in which it is made;
* `chain_requests`: what the providers of a chain are asked over a whole graph load or append.
-/
import LibA32Android.Foundations.OnlyMatch
import LibA32Android.Elf.ResourceCeilings

namespace LibA32Android

open Foundations

variable {P : Type}

/-- What a provider answers. -/
abbrev ProviderAnswer : Type := Except Elf32DependencyProviderError Elf32DependencySource

/-- `Elf32DependencyProvider`, with states in `P`; by default `resolve_for` is `resolve`. -/
structure ProviderObject (P : Type) where
  resolve : P → ByteString → ℕ → ProviderAnswer × P
  resolveFor : P → ByteString → ByteString → ℕ → ProviderAnswer × P :=
    fun state _ requestedName maxImageBytes => resolve state requestedName maxImageBytes

/-- The state of a provider. -/
structure Provided (object : ProviderObject P) where
  state : P

instance (object : ProviderObject P) : Elf32DependencyProvider (Provided object) where
  resolveFor provider requesterIdentity requestedName maxImageBytes :=
    let answered := object.resolveFor provider.state requesterIdentity requestedName maxImageBytes
    (answered.1, ⟨answered.2⟩)

/-! ### Chains -/

/-- The loop of both methods of a chain; `none` is a null pointer. -/
def askInTurn (ask : ProviderObject P → P → ProviderAnswer × P) :
    List (Option (ProviderObject P)) → P → ProviderAnswer × P
  | [], state => (.error .notFound, state)
  | none :: _, state => (.error .failed, state)
  | some provider :: providers, state =>
    match ask provider state with
    | (.error .notFound, state) => askInTurn ask providers state
    | answered => answered

/-- `Elf32DependencyProviderChain`. -/
structure Elf32DependencyProviderChain (P : Type) where
  providers : List (Option (ProviderObject P))

/-- Its two methods. -/
def Elf32DependencyProviderChain.object (chain : Elf32DependencyProviderChain P) :
    ProviderObject P where
  resolve state requestedName maxImageBytes :=
    askInTurn (fun provider state => provider.resolve state requestedName maxImageBytes)
      chain.providers state
  resolveFor state requesterIdentity requestedName maxImageBytes :=
    askInTurn
      (fun provider state => provider.resolveFor state requesterIdentity requestedName
        maxImageBytes)
      chain.providers state

/-- The first providers, and then the others if none of the first has an answer. -/
lemma askInTurn_append (ask : ProviderObject P → P → ProviderAnswer × P)
    (providers others : List (Option (ProviderObject P))) (state : P) :
    askInTurn ask (providers ++ others) state
      = match askInTurn ask providers state with
        | (.error .notFound, state) => askInTurn ask others state
        | answered => answered := by
  induction providers generalizing state with
  | nil => rfl
  | cons provider providers ih =>
    cases provider with
    | none => rfl
    | some provider =>
      rw [List.cons_append, askInTurn, askInTurn]
      rcases ask provider state with ⟨(_ | _) | source, state'⟩
      · exact ih state'
      · rfl
      · rfl

/-- **Chains flatten**: a chain in a chain can be replaced by its providers. -/
theorem chain_flatten (before after : List (Option (ProviderObject P)))
    (inner : Elf32DependencyProviderChain P) :
    (Elf32DependencyProviderChain.mk (before ++ some inner.object :: after)).object
      = (Elf32DependencyProviderChain.mk (before ++ (inner.providers ++ after))).object := by
  have hinner : ∀ (ask : ProviderObject P → P → ProviderAnswer × P),
      ask inner.object = askInTurn ask inner.providers → ∀ state,
      askInTurn ask (before ++ some inner.object :: after) state
        = askInTurn ask (before ++ (inner.providers ++ after)) state := by
    intro ask hask state
    rw [askInTurn_append, askInTurn_append]
    rcases askInTurn ask before state with ⟨(_ | _) | source, state'⟩
    · dsimp only
      rw [askInTurn, hask, askInTurn_append]
    · rfl
    · rfl
  rw [Elf32DependencyProviderChain.object, Elf32DependencyProviderChain.object]
  congr 1
  · funext state requestedName maxImageBytes
    exact hinner _ rfl state
  · funext state requesterIdentity requestedName maxImageBytes
    exact hinner _ rfl state

/-! ### Catalogs -/

/-- `Elf32DependencyCatalogEntry`. -/
structure Elf32DependencyCatalogEntry where
  requestedName : ByteString
  identity : ByteString
  image : List UInt8
  deriving DecidableEq

/-- `Elf32DependencyCatalogProvider`. -/
structure Elf32DependencyCatalogProvider where
  entries : List Elf32DependencyCatalogEntry

namespace Elf32DependencyCatalogProvider

/-- `Elf32DependencyCatalogProvider::resolve`, which has no state. -/
def answer (catalog : Elf32DependencyCatalogProvider) (requestedName : ByteString)
    (maxImageBytes : ℕ) : ProviderAnswer :=
  match onlyMatch (·.requestedName = requestedName) some none catalog.entries with
  | none => .error .failed
  | some none => .error .notFound
  | some (some entry) =>
    if entry.identity = [] ∨ entry.image = [] ∨ entry.image.length > maxImageBytes then
      .error .failed
    else .ok ⟨entry.identity, entry.image⟩

/-- The provider; its `resolve_for` is that of the base class. -/
def object (catalog : Elf32DependencyCatalogProvider) : ProviderObject P where
  resolve state requestedName maxImageBytes := (catalog.answer requestedName maxImageBytes, state)

/-- The entries for a name. -/
def matching (catalog : Elf32DependencyCatalogProvider) (requestedName : ByteString) :
    List Elf32DependencyCatalogEntry :=
  catalog.entries.filter (·.requestedName = requestedName)

variable {catalog : Elf32DependencyCatalogProvider} {requestedName : ByteString}
  {maxImageBytes : ℕ}

/-- A source is that of the only entry for the name. -/
lemma answer_eq_ok {source : Elf32DependencySource}
    (h : catalog.answer requestedName maxImageBytes = .ok source) :
    ∃ entry, catalog.matching requestedName = [entry] ∧ source = ⟨entry.identity, entry.image⟩ := by
  rw [answer] at h
  rcases hfound : onlyMatch (·.requestedName = requestedName) some none catalog.entries with
    _ | _ | entry
  · rw [hfound] at h
    cases h
  · rw [hfound] at h
    cases h
  · obtain ⟨_, hmatching, heq⟩ := onlyMatch_eq_some_some.mp hfound
    cases heq
    rw [hfound] at h
    dsimp only at h
    split at h
    · cases h
    · cases h
      exact ⟨entry, hmatching, rfl⟩

/-- A name that is not found has no entry. -/
lemma answer_eq_notFound (h : catalog.answer requestedName maxImageBytes = .error .notFound) :
    catalog.matching requestedName = [] := by
  rw [answer] at h
  rcases hfound : onlyMatch (·.requestedName = requestedName) some none catalog.entries with
    _ | _ | entry
  · rw [hfound] at h
    cases h
  · exact onlyMatch_eq_some_none.mp hfound
  · rw [hfound] at h
    dsimp only at h
    split at h
    · cases h
    · cases h

end Elf32DependencyCatalogProvider

/-! ### What the providers of a chain are asked -/

/-- The methods of a provider. -/
inductive ProviderMethod where
  | resolve
  | resolveFor

/-- A call of a provider: its place in a chain, the method, the state in which the provider
was asked, and the request with the answer; `resolve` has no requester. -/
structure ProviderCall (P : Type) where
  place : ℕ
  method : ProviderMethod
  state : P
  request : ProviderRequest

/-- A provider with a list of the calls of its methods, which it shares with others. -/
def ProviderObject.traced (place : ℕ) (object : ProviderObject P) :
    ProviderObject (P × List (ProviderCall P)) where
  resolve state requestedName maxImageBytes :=
    let answered := object.resolve state.1 requestedName maxImageBytes
    (answered.1, answered.2, state.2
      ++ [⟨place, .resolve, state.1, ⟨[], requestedName, maxImageBytes, answered.1⟩⟩])
  resolveFor state requesterIdentity requestedName maxImageBytes :=
    let answered := object.resolveFor state.1 requesterIdentity requestedName maxImageBytes
    (answered.1, answered.2, state.2
      ++ [⟨place, .resolveFor, state.1,
        ⟨requesterIdentity, requestedName, maxImageBytes, answered.1⟩⟩])

/-- Providers with their places in a chain. -/
def tracedFrom : ℕ → List (Option (ProviderObject P)) →
    List (Option (ProviderObject (P × List (ProviderCall P))))
  | _, [] => []
  | place, provider :: providers =>
    provider.map (ProviderObject.traced place) :: tracedFrom (place + 1) providers

/-- The chain with traced providers. -/
def Elf32DependencyProviderChain.traced (chain : Elf32DependencyProviderChain P) :
    Elf32DependencyProviderChain (P × List (ProviderCall P)) where
  providers := tracedFrom 0 chain.providers

/-- The calls behind one request to a chain whose first provider has the place `first`: the
providers are asked in order, as the chain was, and each answers as it does in the state it is
then in; all but the last one that is asked know nothing, and the last one gives the answer,
unless no provider or a null pointer is left. -/
structure Consulted (first : ℕ) (providers : List (Option (ProviderObject P)))
    (request : ProviderRequest) (calls : List (ProviderCall P)) : Prop where
  places : calls.map (·.place) = List.range' first calls.length
  length_le : calls.length ≤ providers.length
  same : ∀ call ∈ calls, call.method = .resolveFor
    ∧ call.request = { request with answer := call.request.answer }
  answered : ∀ call ∈ calls, ∃ index provider,
    call.place = first + index ∧ providers[index]? = some (some provider)
      ∧ call.request.answer = (provider.resolveFor call.state request.requesterIdentity
        request.requestedName request.requestLimit).1
  passed : ∀ call ∈ calls.dropLast, call.request.answer = .error .notFound
  decided : request.answer ≠ .error .notFound →
    (∃ call, calls.getLast? = some call ∧ call.request.answer = request.answer)
      ∨ providers[calls.length]? = some none ∧ request.answer = .error .failed
        ∧ ∀ call ∈ calls, call.request.answer = .error .notFound
  unknown : request.answer = .error .notFound → calls.length = providers.length
    ∧ ∀ call ∈ calls, call.request.answer = .error .notFound

section Trace

variable {providers : List (Option (ProviderObject P))} {first : ℕ} {request : ProviderRequest}
  {calls : List (ProviderCall P)} {provider : ProviderObject P} {state : P}

/-- A provider that knows nothing comes before the others. -/
lemma Consulted.pass (h : Consulted (first + 1) providers request calls)
    (hasked : (provider.resolveFor state request.requesterIdentity request.requestedName
      request.requestLimit).1 = .error .notFound) :
    Consulted first (some provider :: providers) request
      (⟨first, .resolveFor, state, { request with answer := .error .notFound }⟩ :: calls) where
  places := by
    rw [List.map_cons, h.places, List.length_cons, List.range'_succ]
  length_le := Nat.succ_le_succ h.length_le
  same := by
    rintro call (_ | ⟨_, hcall⟩)
    · exact ⟨rfl, rfl⟩
    · exact h.same call hcall
  answered := by
    rintro call (_ | ⟨_, hcall⟩)
    · exact ⟨0, provider, rfl, rfl, hasked.symm⟩
    · obtain ⟨index, asked, hplace, hindex, hanswer⟩ := h.answered call hcall
      exact ⟨index + 1, asked, by omega, hindex, hanswer⟩
  passed := by
    cases calls with
    | nil => exact fun _ hcall => absurd hcall List.not_mem_nil
    | cons next calls =>
      rw [List.dropLast_cons_cons]
      rintro call (_ | ⟨_, hcall⟩)
      · rfl
      · exact h.passed call hcall
  decided hanswer := by
    rcases h.decided hanswer with ⟨call, hlast, hcall⟩ | ⟨hnull, hfailed, hall⟩
    · refine .inl ⟨call, ?_, hcall⟩
      rw [List.getLast?_cons, hlast]
      rfl
    · refine .inr ⟨hnull, hfailed, ?_⟩
      rintro call (_ | ⟨_, hcall⟩)
      · rfl
      · exact hall call hcall
  unknown hanswer := by
    obtain ⟨hlength, hall⟩ := h.unknown hanswer
    refine ⟨congrArg (· + 1) hlength, ?_⟩
    rintro call (_ | ⟨_, hcall⟩)
    · rfl
    · exact hall call hcall

/-- A provider that has an answer is the last one. -/
lemma Consulted.last
    (hasked : (provider.resolveFor state request.requesterIdentity request.requestedName
      request.requestLimit).1 = request.answer) (hanswer : request.answer ≠ .error .notFound) :
    Consulted first (some provider :: providers) request
      [⟨first, .resolveFor, state, request⟩] where
  places := rfl
  length_le := Nat.succ_le_succ (Nat.zero_le _)
  same := by
    rintro call (_ | ⟨_, hcall⟩)
    · exact ⟨rfl, rfl⟩
    · exact absurd hcall List.not_mem_nil
  answered := by
    rintro call (_ | ⟨_, hcall⟩)
    · exact ⟨0, provider, rfl, rfl, hasked.symm⟩
    · exact absurd hcall List.not_mem_nil
  passed _ hcall := absurd hcall List.not_mem_nil
  decided _ := .inl ⟨_, rfl, rfl⟩
  unknown h := absurd h hanswer

/-- **One request to a chain with traced providers.** -/
lemma askInTurn_traced (requesterIdentity requestedName : ByteString) (maxImageBytes first : ℕ)
    (providers : List (Option (ProviderObject P))) (state : P)
    (before : List (ProviderCall P)) :
    ∃ calls answer state',
      askInTurn (fun provider state => provider.resolveFor state requesterIdentity requestedName
          maxImageBytes) providers state = (answer, state')
        ∧ askInTurn (fun provider state => provider.resolveFor state requesterIdentity
          requestedName maxImageBytes) (tracedFrom first providers) (state, before)
          = (answer, state', before ++ calls)
        ∧ Consulted first providers ⟨requesterIdentity, requestedName, maxImageBytes, answer⟩
          calls := by
  induction providers generalizing first state before with
  | nil =>
    refine ⟨[], .error .notFound, state, rfl, ?_, ?_⟩
    · rw [List.append_nil]
      rfl
    · exact ⟨rfl, Nat.le_refl 0, fun _ h => absurd h List.not_mem_nil,
        fun _ h => absurd h List.not_mem_nil, fun _ h => absurd h List.not_mem_nil,
        fun h => absurd rfl h, fun _ => ⟨rfl, fun _ h => absurd h List.not_mem_nil⟩⟩
  | cons provider providers ih =>
    cases provider with
    | none =>
      refine ⟨[], .error .failed, state, rfl, ?_, ?_⟩
      · rw [List.append_nil]
        rfl
      · refine ⟨rfl, Nat.zero_le _, fun _ h => absurd h List.not_mem_nil,
          fun _ h => absurd h List.not_mem_nil, fun _ h => absurd h List.not_mem_nil,
          fun _ => .inr ⟨rfl, rfl, ?_⟩, fun h => ?_⟩
        · exact fun _ h => absurd h List.not_mem_nil
        · cases h
    | some provider =>
      rw [tracedFrom, Option.map_some, askInTurn, askInTurn]
      simp only [ProviderObject.traced]
      rcases hasked : provider.resolveFor state requesterIdentity requestedName maxImageBytes with
        ⟨(_ | _) | source, state'⟩
      · obtain ⟨calls, answer, last, hplain, htraced, hconsulted⟩ := ih (first + 1) state'
          (before ++ [⟨first, .resolveFor, state, ⟨requesterIdentity, requestedName,
            maxImageBytes, .error .notFound⟩⟩])
        refine ⟨_, answer, last, hplain, ?_, hconsulted.pass (congrArg Prod.fst hasked)⟩
        rw [List.append_assoc] at htraced
        exact htraced
      · refine ⟨_, _, state', rfl, rfl, .last (congrArg Prod.fst hasked) fun h => ?_⟩
        cases h
      · refine ⟨_, _, state', rfl, rfl, .last (congrArg Prod.fst hasked) fun h => ?_⟩
        cases h

end Trace

/-- The calls behind some requests to a chain, request after request. -/
def ConsultedAll (providers : List (Option (ProviderObject P))) (requests : List ProviderRequest)
    (calls : List (ProviderCall P)) : Prop :=
  ∃ rounds, calls = rounds.flatten ∧ List.Forall₂ (Consulted 0 providers) requests rounds

/-- One request more. -/
lemma ConsultedAll.append {providers : List (Option (ProviderObject P))}
    {requests : List ProviderRequest} {calls round : List (ProviderCall P)}
    {request : ProviderRequest} (h : ConsultedAll providers requests calls)
    (hround : Consulted 0 providers request round) :
    ConsultedAll providers (requests ++ [request]) (calls ++ round) := by
  obtain ⟨rounds, rfl, hrounds⟩ := h
  refine ⟨rounds ++ [round], by simp, ?_⟩
  exact List.rel_append hrounds (.cons hround .nil)

/-- The answer of a call is that of the provider at its place, in the state of the call. -/
lemma ConsultedAll.answered {providers : List (Option (ProviderObject P))}
    {requests : List ProviderRequest} {calls : List (ProviderCall P)}
    (h : ConsultedAll providers requests calls) {call : ProviderCall P} (hcall : call ∈ calls) :
    ∃ provider, providers[call.place]? = some (some provider)
      ∧ call.request.answer = (provider.resolveFor call.state call.request.requesterIdentity
        call.request.requestedName call.request.requestLimit).1 := by
  obtain ⟨rounds, rfl, hrounds⟩ := h
  induction hrounds with
  | nil => exact absurd hcall List.not_mem_nil
  | cons hround _ ih =>
    rw [List.flatten_cons, List.mem_append] at hcall
    rcases hcall with hmem | hmem
    · obtain ⟨index, provider, hplace, hindex, hanswer⟩ := hround.answered call hmem
      obtain ⟨-, hsame⟩ := hround.same call hmem
      refine ⟨provider, by rwa [hplace, Nat.zero_add], ?_⟩
      rw [hanswer, hsame]
    · exact ih hmem

section Calls

variable {chain : Elf32DependencyProviderChain P}

/-- A record of the requests to a chain, and of the calls behind them. -/
abbrev TracedChain (chain : Elf32DependencyProviderChain P) : Type :=
  Recorded (Provided chain.traced.object)

/-- Before the first request. -/
def TracedChain.start (chain : Elf32DependencyProviderChain P) (state : P) : TracedChain chain :=
  ⟨⟨(state, [])⟩, []⟩

/-- The chain without the records. -/
def TracedChain.erase (traced : TracedChain chain) : Provided chain.object :=
  ⟨traced.provider.state.1⟩

/-- The calls of the providers. -/
def TracedChain.calls (traced : TracedChain chain) : List (ProviderCall P) :=
  traced.provider.state.2

/-- The records agree. -/
def TracedChain.Agrees (traced : TracedChain chain) : Prop :=
  ConsultedAll chain.providers traced.requests traced.calls

/-- Records change nothing. -/
lemma tracedChain_hom :
    ProviderHom (TracedChain.erase : TracedChain chain → Provided chain.object) := by
  rintro ⟨⟨⟨state, calls⟩⟩, requests⟩ requesterIdentity requestedName maxImageBytes
  obtain ⟨round, answer, state', hplain, htraced, -⟩ := askInTurn_traced requesterIdentity
    requestedName maxImageBytes 0 chain.providers state calls
  have hresolve : chain.object.resolveFor state requesterIdentity requestedName maxImageBytes
      = (answer, state') := hplain
  have hresolve' : chain.traced.object.resolveFor (state, calls) requesterIdentity requestedName
      maxImageBytes = (answer, state', calls ++ round) := htraced
  simp only [Elf32DependencyProvider.resolveFor, TracedChain.erase, mapState, hresolve, hresolve']

/-- A request adds the calls behind it. -/
lemma tracedChain_resolveFor (traced : TracedChain chain)
    (requesterIdentity requestedName : ByteString) (maxImageBytes : ℕ) :
    let answered := Elf32DependencyProvider.resolveFor traced requesterIdentity requestedName
      maxImageBytes
    ∃ round, answered.2.calls = traced.calls ++ round
      ∧ Consulted 0 chain.providers
        ⟨requesterIdentity, requestedName, maxImageBytes, answered.1⟩ round := by
  obtain ⟨⟨⟨state, calls⟩⟩, requests⟩ := traced
  obtain ⟨round, answer, state', -, htraced, hconsulted⟩ := askInTurn_traced requesterIdentity
    requestedName maxImageBytes 0 chain.providers state calls
  have hresolve : chain.traced.object.resolveFor (state, calls) requesterIdentity requestedName
      maxImageBytes = (answer, state', calls ++ round) := htraced
  simp only [Elf32DependencyProvider.resolveFor, TracedChain.calls, hresolve]
  exact ⟨round, rfl, hconsulted⟩

/-- A request keeps the records in agreement. -/
lemma tracedChain_counts :
    Counts fun (traced : TracedChain chain) (_ : ℕ) => traced.Agrees := by
  intro traced _ requesterIdentity requestedName maxImageBytes h
  obtain ⟨round, hcalls, hconsulted⟩ := tracedChain_resolveFor traced requesterIdentity
    requestedName maxImageBytes
  rw [TracedChain.Agrees, hcalls]
  exact ConsultedAll.append h hconsulted

end Calls

/-- **A chain asks its providers in order, for every dependency of a graph.**  Over a whole
call of either entry point, which the records do not change, the calls of the providers are
those behind the requests to the chain, one request after the other: each provider is asked
as the chain is, with `resolve_for`, after all before it knew nothing, and at most once for a
request; it answers as it does in its state at that call; and the first other answer is the
answer of the chain. -/
theorem chain_requests (chain : Elf32DependencyProviderChain P) (memory : MappedGuestMemory)
    (root : Elf32DependencyLoadSource) (state : P) (options : Elf32DependencyLoadOptions) :
    let loaded := loadElf32DependencyGraph memory root (TracedChain.start chain state) options
    (loadElf32DependencyGraph memory root (Provided.mk state : Provided chain.object) options
          = (loaded.1, loaded.2.1, loaded.2.2.erase)
        ∧ ConsultedAll chain.providers loaded.2.2.requests loaded.2.2.calls)
      ∧ ∀ linkMap rootPolicy,
        let appended := appendElf32LinkMapRoot memory linkMap root (TracedChain.start chain state)
          options rootPolicy
        appendElf32LinkMapRoot memory linkMap root (Provided.mk state : Provided chain.object)
            options rootPolicy
            = (appended.1, appended.2.1, appended.2.2.1, appended.2.2.2.erase)
          ∧ ConsultedAll chain.providers appended.2.2.2.requests appended.2.2.2.calls := by
  have hstart : (TracedChain.start chain state).Agrees := ⟨[], rfl, .nil⟩
  refine ⟨⟨?_, ?_⟩, fun linkMap rootPolicy => ⟨?_, ?_⟩⟩
  · exact loadElf32DependencyGraph_map tracedChain_hom memory root (TracedChain.start chain state)
      options
  · obtain ⟨_, -, hagrees⟩ := (loadElf32DependencyGraph_run memory root
      (TracedChain.start chain state) options).counted tracedChain_counts hstart
    exact hagrees
  · exact appendElf32LinkMapRoot_map tracedChain_hom memory linkMap root
      (TracedChain.start chain state) options rootPolicy
  · obtain ⟨_, -, hagrees⟩ := (appendElf32LinkMapRoot_run memory linkMap root
      (TracedChain.start chain state) options rootPolicy).counted tracedChain_counts hstart
    exact hagrees

end LibA32Android

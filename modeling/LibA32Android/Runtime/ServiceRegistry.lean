/-
The service registry (`runtime/a32_service_registry.h`, `.cpp`).

* `A32HostServiceRegistry.handle`: the only entry for an immediate gets the call; without one
  the service is unhandled, and with several, or with a null pointer or the registry itself
  in its place, it fails;
* `registry_flatten`: the order of the entries does not matter, and a registry in a registry
  can be replaced by its entries;
* `A32HostServiceRegistry.program`: a registry of handlers behind the memory interface is one;
* `registry_routes`: the calls that the handlers of a registry get over a dispatched run.
-/
import LibA32Android.Foundations.OnlyMatch
import LibA32Android.Runtime.ServiceInvariant

namespace LibA32Android

open Foundations

variable {α β H M : Type}

/-! ### The registry -/

/-- The pointer of an entry, as its registry sees it. -/
inductive HandlerPointer (α : Type) where
  | null
  | this
  | child (handler : α)

namespace HandlerPointer

/-- The handler that may be called. -/
def target : HandlerPointer α → Option α
  | .null => none
  | .this => none
  | .child handler => some handler

def map (f : α → β) : HandlerPointer α → HandlerPointer β
  | .null => .null
  | .this => .this
  | .child handler => .child (f handler)

lemma target_map (f : α → β) (pointer : HandlerPointer α) :
    (pointer.map f).target = pointer.target.map f := by
  cases pointer <;> rfl

lemma target_eq_some {pointer : HandlerPointer α} {handler : α} :
    pointer.target = some handler ↔ pointer = .child handler := by
  cases pointer <;> simp [target]

end HandlerPointer

/-- `A32HostServiceRegistryEntry`. -/
structure A32HostServiceRegistryEntry (α : Type) where
  svcImmediate : UInt32
  handler : HandlerPointer α

/-- `A32HostServiceRegistry`, with handlers in `α`. -/
structure A32HostServiceRegistry (α : Type) where
  entries : List (A32HostServiceRegistryEntry α)

namespace A32HostServiceRegistry

/-- The entries for an immediate. -/
def matching (registry : A32HostServiceRegistry α) (svcImmediate : UInt32) :
    List (A32HostServiceRegistryEntry α) :=
  registry.entries.filter (·.svcImmediate = svcImmediate)

/-- The loop of `handle`: `match` at its end, or the return of `Failed`. -/
def lookup (registry : A32HostServiceRegistry α) (svcImmediate : UInt32) : Option (Option α) :=
  onlyMatch (·.svcImmediate = svcImmediate) (·.handler.target) none registry.entries

/-- `A32HostServiceRegistry::handle`. -/
def handle (registry : A32HostServiceRegistry (A32HostServiceHandler H M)) (state : H) (memory : M)
    (svcImmediate : UInt32) (regs : CoreRegisters) (cpsr : UInt32) : ServiceReply H M :=
  match registry.lookup svcImmediate with
  | none => ⟨.failed, state, memory, regs, cpsr⟩
  | some none => ⟨.unhandled, state, memory, regs, cpsr⟩
  | some (some handler) => handler.handle state memory svcImmediate regs cpsr

/-- The registry as a handler. -/
def handler (registry : A32HostServiceRegistry (A32HostServiceHandler H M)) :
    A32HostServiceHandler H M where
  handle := registry.handle

/-- The handlers replaced, each with a view to the immediate of its entry. -/
def map (f : UInt32 → α → β) (registry : A32HostServiceRegistry α) : A32HostServiceRegistry β where
  entries := registry.entries.map fun entry =>
    ⟨entry.svcImmediate, entry.handler.map (f entry.svcImmediate)⟩

lemma map_map {γ : Type} (f : UInt32 → α → β) (g : UInt32 → β → γ)
    (registry : A32HostServiceRegistry α) :
    (registry.map f).map g
      = registry.map fun immediate child => g immediate (f immediate child) := by
  have hpointer : ∀ entry : A32HostServiceRegistryEntry α,
      (entry.handler.map (f entry.svcImmediate)).map (g entry.svcImmediate)
        = entry.handler.map fun child => g entry.svcImmediate (f entry.svcImmediate child) :=
    fun entry => by cases entry.handler <;> rfl
  simp only [map, List.map_map, Function.comp_def, hpointer]

/-! ### What is found -/

section Lookup

variable {registry : A32HostServiceRegistry α} {svcImmediate : UInt32} {child : α}

lemma lookup_eq : registry.lookup svcImmediate
    = theMatch (·.handler.target) (registry.matching svcImmediate) := onlyMatch_eq

/-- What is called is the handler of the only entry. -/
lemma lookup_eq_child : registry.lookup svcImmediate = some (some child)
    ↔ registry.matching svcImmediate = [⟨svcImmediate, .child child⟩] := by
  rw [lookup, onlyMatch_eq_some_some]
  constructor
  · rintro ⟨⟨immediate, pointer⟩, hmatching, htarget⟩
    have hmem : (⟨immediate, pointer⟩ : A32HostServiceRegistryEntry α)
        ∈ registry.entries.filter (·.svcImmediate = svcImmediate) := by
      rw [hmatching]
      exact List.mem_singleton_self _
    have himmediate : immediate = svcImmediate := of_decide_eq_true (List.mem_filter.mp hmem).2
    have hpointer : pointer = .child child := HandlerPointer.target_eq_some.mp htarget
    rw [matching, hmatching, himmediate, hpointer]
  · intro hmatching
    exact ⟨_, hmatching, rfl⟩

/-- Nothing is called when there is no entry. -/
lemma lookup_eq_none : registry.lookup svcImmediate = some none
    ↔ registry.matching svcImmediate = [] := onlyMatch_eq_some_none

/-- The handlers that were replaced. -/
lemma lookup_map (f : UInt32 → α → β) : (registry.map f).lookup svcImmediate
    = (registry.lookup svcImmediate).map (Option.map (f svcImmediate)) := by
  refine onlyMatch_map (fun _ => rfl) (fun entry himmediate => ?_) none
  rw [← of_decide_eq_true himmediate]
  exact HandlerPointer.target_map _ _

end Lookup

end A32HostServiceRegistry

open A32HostServiceRegistry

/-- **Registries flatten.**  Take a registry with a registry as its only entry for an
immediate, and put the entries of the inner registry for that immediate in its place.  In
whatever order the entries of both are listed, they handle every SVC alike, with the same
calls of the same handlers. -/
theorem registry_flatten (inner : A32HostServiceRegistry (A32HostServiceHandler H M))
    {nested flat rest : List (A32HostServiceRegistryEntry (A32HostServiceHandler H M))}
    {immediate : UInt32} (hrest : ∀ entry ∈ rest, entry.svcImmediate ≠ immediate)
    (hnested : nested.Perm (⟨immediate, .child inner.handler⟩ :: rest))
    (hflat : flat.Perm (inner.matching immediate ++ rest)) :
    (A32HostServiceRegistry.mk nested).handler = (A32HostServiceRegistry.mk flat).handler := by
  rw [handler, handler]
  congr 1
  funext state memory svcImmediate regs cpsr
  have hfound : (A32HostServiceRegistry.mk nested).lookup svcImmediate
      = (A32HostServiceRegistry.mk (⟨immediate, .child inner.handler⟩ :: rest)).lookup
        svcImmediate := onlyMatch_perm hnested
  have hfound' : (A32HostServiceRegistry.mk flat).lookup svcImmediate
      = (A32HostServiceRegistry.mk (inner.matching immediate ++ rest)).lookup svcImmediate :=
    onlyMatch_perm hflat
  rw [handle, handle, hfound, hfound', lookup_eq, lookup_eq, matching, matching]
  by_cases heq : svcImmediate = immediate
  · -- the inner registry is asked, and finds what is among its entries in its place
    subst heq
    have hnone : rest.filter (·.svcImmediate = svcImmediate) = [] :=
      List.filter_eq_nil_iff.mpr fun entry hentry => by simpa using hrest entry hentry
    have hinner : (inner.matching svcImmediate).filter (·.svcImmediate = svcImmediate)
        = inner.matching svcImmediate := by
      rw [matching, List.filter_filter]
      simp only [Bool.and_self]
    rw [List.filter_cons_of_pos (by simp), List.filter_append, hnone, hinner, List.append_nil,
      ← lookup_eq]
    rfl
  · have hinner : (inner.matching immediate).filter (·.svcImmediate = svcImmediate) = [] := by
      refine List.filter_eq_nil_iff.mpr fun entry hentry => ?_
      have himmediate : entry.svcImmediate = immediate :=
        of_decide_eq_true (List.mem_filter.mp hentry).2
      simpa [himmediate] using fun h => heq h.symm
    rw [List.filter_cons_of_neg (by simpa using fun h => heq h.symm), List.filter_append, hinner,
      List.nil_append]

/-- A registry between two other entries, and its entry for the immediate behind them. -/
theorem registry_flatten_between :
    let inner : A32HostServiceRegistry (A32HostServiceHandler Unit Unit) :=
      ⟨[⟨9, .null⟩, ⟨7, .child returningHandler⟩]⟩
    (A32HostServiceRegistry.mk
        [⟨8, .child returningHandler⟩, ⟨7, .child inner.handler⟩, ⟨9, .this⟩]).handler
      = (A32HostServiceRegistry.mk
        [⟨9, .this⟩, ⟨8, .child returningHandler⟩, ⟨7, .child returningHandler⟩]).handler := by
  intro inner
  let rest : List (A32HostServiceRegistryEntry (A32HostServiceHandler Unit Unit)) :=
    [⟨8, .child returningHandler⟩, ⟨9, .this⟩]
  have hrest : ∀ entry ∈ rest, entry.svcImmediate ≠ 7 := by
    simp only [rest, List.forall_mem_cons]
    exact ⟨by decide, by decide, fun _ hentry => absurd hentry List.not_mem_nil⟩
  have hflat : ([⟨9, .this⟩, ⟨8, .child returningHandler⟩, ⟨7, .child returningHandler⟩] :
      List (A32HostServiceRegistryEntry (A32HostServiceHandler Unit Unit))).Perm
      (inner.matching 7 ++ rest) :=
    List.reverse_perm (inner.matching 7 ++ rest)
  exact registry_flatten inner hrest (List.Perm.swap _ _ _) hflat

/-! ### Behind the memory interface -/

namespace A32HostServiceRegistry

/-- A registry of handlers that reach memory through its interface. -/
def program (registry : A32HostServiceRegistry (ServiceProgram H)) : ServiceProgram H where
  handle state svcImmediate regs cpsr :=
    match registry.lookup svcImmediate with
    | none => .done ⟨.failed, state, regs, cpsr⟩
    | some none => .done ⟨.unhandled, state, regs, cpsr⟩
    | some (some program) => program.handle state svcImmediate regs cpsr

/-- **It is the registry of the handlers over a guest memory.** -/
lemma program_on [GuestMemory M] (registry : A32HostServiceRegistry (ServiceProgram H)) :
    registry.program.on M = (registry.map fun _ program => program.on M).handler := by
  rw [ServiceProgram.on, ServiceProgram.against, handler]
  congr 1
  funext state memory svcImmediate regs cpsr
  rw [handle, lookup_map]
  dsimp only [program]
  rcases registry.lookup svcImmediate with _ | _ | program
  · rfl
  · rfl
  · rfl

/-- Its calls are those of the handlers. -/
lemma program_makes {registry : A32HostServiceRegistry (ServiceProgram H)} {ok : MemoryCall → Prop}
    (h : ∀ entry ∈ registry.entries, ∀ program, entry.handler = .child program → program.Makes ok) :
    registry.program.Makes ok := by
  intro state svcImmediate regs cpsr
  dsimp only [program]
  rcases hfound : registry.lookup svcImmediate with _ | _ | program
  · exact .done _
  · exact .done _
  · have hmem : (⟨svcImmediate, .child program⟩ : A32HostServiceRegistryEntry (ServiceProgram H))
        ∈ registry.matching svcImmediate :=
      lookup_eq_child.mp hfound ▸ List.mem_singleton_self _
    exact h _ (List.mem_filter.mp hmem).1 program rfl state svcImmediate regs cpsr

/-! ### Runs -/

/-- A registry keeps what its handlers keep, each for the immediate of its entry. -/
lemma map_servesAt {registry : A32HostServiceRegistry α}
    {f : UInt32 → α → A32HostServiceHandler H M}
    {maxServiceCalls : ℕ} {K : ℕ → H → Prop}
    {F : ℕ → UInt32 → A32HostServiceDisposition → H → Prop} {immediate : UInt32}
    (hchild : ∀ child, registry.lookup immediate = some (some child) →
      (f immediate child).ServesAt maxServiceCalls K F immediate)
    (hmissing : ∀ n state, registry.lookup immediate = some none → K n state → n < maxServiceCalls →
      F n immediate .unhandled state)
    (hinvalid : ∀ n state, registry.lookup immediate = none → K n state → n < maxServiceCalls →
      F n immediate .failed state) :
    (registry.map f).handler.ServesAt maxServiceCalls K F immediate := by
  have hhandle : ∀ state memory regs cpsr,
      (registry.map f).handler.handle state memory immediate regs cpsr
        = match (registry.lookup immediate).map (Option.map (f immediate)) with
          | none => ⟨.failed, state, memory, regs, cpsr⟩
          | some none => ⟨.unhandled, state, memory, regs, cpsr⟩
          | some (some child) => child.handle state memory immediate regs cpsr := by
    intro state memory regs cpsr
    rw [← lookup_map]
    rfl
  rcases hfound : registry.lookup immediate with _ | _ | child
  · simp only [hfound, Option.map_none] at hhandle
    refine ⟨fun _ _ h => ?_, fun hn hK h _ => ?_⟩
    · rw [hhandle] at h
      cases h
    · rw [hhandle] at h ⊢
      exact h ▸ hinvalid _ _ hfound hK hn
  · simp only [hfound, Option.map_some, Option.map_none] at hhandle
    refine ⟨fun _ _ h => ?_, fun hn hK h _ => ?_⟩
    · rw [hhandle] at h
      cases h
    · rw [hhandle] at h ⊢
      exact h ▸ hmissing _ _ hfound hK hn
  · simp only [hfound, Option.map_some] at hhandle
    refine ⟨fun hn hK h => ?_, fun hn hK h hne => ?_⟩
    · rw [hhandle] at h ⊢
      exact (hchild child hfound).handled hn hK h
    · rw [hhandle] at h ⊢
      exact (hchild child hfound).refused hn hK h hne

end A32HostServiceRegistry

/-- The handler with a list of its calls: the immediate of its entry, and the one it got. -/
def A32HostServiceHandler.traced (entry : UInt32) (handler : A32HostServiceHandler H M) :
    A32HostServiceHandler (H × List (UInt32 × UInt32)) M where
  handle state memory immediate regs cpsr :=
    let reply := handler.handle state.1 memory immediate regs cpsr
    ⟨reply.disposition, (reply.handlerState, state.2 ++ [(entry, immediate)]), reply.memory,
      reply.regs, reply.cpsr⟩

namespace A32HostServiceRegistry

/-- The registry with traced handlers. -/
def traced (registry : A32HostServiceRegistry (A32HostServiceHandler H M)) :
    A32HostServiceRegistry (A32HostServiceHandler (H × List (UInt32 × UInt32)) M) :=
  registry.map A32HostServiceHandler.traced

/-- An immediate has one entry, and that has a handler. -/
def Routes (registry : A32HostServiceRegistry α) (immediate : UInt32) : Prop :=
  ∃ child, registry.matching immediate = [⟨immediate, .child child⟩]

/-- The calls that the handlers of a registry got over a run with a result. -/
structure Routed (registry : A32HostServiceRegistry α) (maxServiceCalls : ℕ)
    (calls : List (UInt32 × UInt32)) (result : A32ServiceDispatchResult) : Prop where
  routes : ∀ call ∈ calls, call.1 = call.2 ∧ registry.Routes call.2
  limit : calls.length ≤ maxServiceCalls
  handled : result.error ≠ some .serviceUnhandled → result.error ≠ some .serviceFailed →
    calls.length = result.servicesHandled
  unhandled : result.error = some .serviceUnhandled → ∃ immediate,
    result.failingSvcImmediate = some immediate
      ∧ (registry.matching immediate = [] ∧ calls.length = result.servicesHandled
        ∨ calls.getLast? = some (immediate, immediate)
          ∧ calls.length = result.servicesHandled + 1)
  failed : result.error = some .serviceFailed → ∃ immediate,
    result.failingSvcImmediate = some immediate
      ∧ (registry.matching immediate ≠ [] ∧ ¬registry.Routes immediate
          ∧ calls.length = result.servicesHandled
        ∨ calls.getLast? = some (immediate, immediate)
          ∧ calls.length = result.servicesHandled + 1)

variable {registry : A32HostServiceRegistry (A32HostServiceHandler H M)}

/-- The traces change nothing. -/
lemma traced_simulates :
    registry.traced.handler.Simulates registry.handler (fun state state' => state.1 = state')
      Eq := by
  rintro ⟨state, calls⟩ _ memory _ immediate regs cpsr rfl rfl
  have hfound : registry.traced.lookup immediate
      = (registry.lookup immediate).map (Option.map (A32HostServiceHandler.traced immediate)) :=
    lookup_map _
  rw [handler, handler]
  dsimp only
  rw [handle, handle, hfound]
  rcases registry.lookup immediate with _ | _ | child
  · exact ⟨rfl, rfl, rfl, rfl, rfl⟩
  · exact ⟨rfl, rfl, rfl, rfl, rfl⟩
  · exact ⟨rfl, rfl, rfl, rfl, rfl⟩

/-- The calls before the end of a run. -/
def Tracing (registry : A32HostServiceRegistry α) (maxServiceCalls n : ℕ)
    (state : H × List (UInt32 × UInt32)) : Prop :=
  state.2.length = n ∧ n ≤ maxServiceCalls
    ∧ ∀ call ∈ state.2, call.1 = call.2 ∧ registry.Routes call.2

/-- The calls after a service that was refused. -/
def Refused (registry : A32HostServiceRegistry α) (maxServiceCalls n : ℕ) (immediate : UInt32)
    (disposition : A32HostServiceDisposition) (state : H × List (UInt32 × UInt32)) : Prop :=
  state.2.length ≤ maxServiceCalls
    ∧ (∀ call ∈ state.2, call.1 = call.2 ∧ registry.Routes call.2)
    ∧ (state.2.getLast? = some (immediate, immediate) ∧ state.2.length = n + 1
      ∨ state.2.length = n
        ∧ (disposition = .unhandled → registry.matching immediate = [])
        ∧ (disposition = .failed → registry.matching immediate ≠ []
            ∧ ¬registry.Routes immediate))

lemma routes_iff {registry : A32HostServiceRegistry α} {immediate : UInt32} :
    registry.Routes immediate ↔ ∃ child, registry.lookup immediate = some (some child) :=
  exists_congr fun _ => lookup_eq_child.symm

/-- One call more. -/
lemma Tracing.call {registry : A32HostServiceRegistry α} {maxServiceCalls n : ℕ}
    {state : H × List (UInt32 × UInt32)} {immediate : UInt32}
    (h : registry.Tracing maxServiceCalls n state) (hn : n < maxServiceCalls)
    (hroutes : registry.Routes immediate) (next : H) :
    registry.Tracing maxServiceCalls (n + 1) (next, state.2 ++ [(immediate, immediate)]) := by
  obtain ⟨hlength, -, hcalls⟩ := h
  refine ⟨by rw [List.length_append, hlength, List.length_singleton], hn, fun call hcall => ?_⟩
  rcases List.mem_append.mp hcall with hbefore | hlast
  · exact hcalls call hbefore
  · rw [List.mem_singleton.mp hlast]
    exact ⟨rfl, hroutes⟩

/-- A call of a handler that is traced. -/
lemma traced_servesAt {child : A32HostServiceHandler H M} {immediate : UInt32}
    (hroutes : registry.Routes immediate) (maxServiceCalls : ℕ) :
    (child.traced immediate).ServesAt maxServiceCalls (registry.Tracing maxServiceCalls)
      (registry.Refused maxServiceCalls) immediate where
  handled hn h _ := h.call hn hroutes _
  refused {n state memory regs cpsr disposition} hn h _ _ := by
    obtain ⟨hlength, hlimit, hcalls⟩ :=
      h.call hn hroutes (child.handle state.1 memory immediate regs cpsr).handlerState
    refine ⟨hlength.trans_le hlimit, hcalls, .inl ⟨?_, hlength⟩⟩
    exact List.getLast?_concat

/-- A SVC of the traced registry. -/
lemma traced_handler_servesAt (registry : A32HostServiceRegistry (A32HostServiceHandler H M))
    (maxServiceCalls : ℕ) (immediate : UInt32) :
    registry.traced.handler.ServesAt maxServiceCalls (registry.Tracing maxServiceCalls)
      (registry.Refused maxServiceCalls) immediate := by
  refine map_servesAt (fun child hlookup => ?_) (fun n state hmissing h _ => ?_)
    fun n state hinvalid h _ => ?_
  · exact traced_servesAt (routes_iff.mpr ⟨child, hlookup⟩) maxServiceCalls
  · obtain ⟨hlength, hlimit, hcalls⟩ := h
    refine ⟨hlength.trans_le hlimit, hcalls, .inr ⟨hlength, fun _ => ?_, fun h => ?_⟩⟩
    · exact lookup_eq_none.mp hmissing
    · cases h
  · obtain ⟨hlength, hlimit, hcalls⟩ := h
    refine ⟨hlength.trans_le hlimit, hcalls,
      .inr ⟨hlength, fun h => ?_, fun _ => ⟨fun hempty => ?_, fun hroutes => ?_⟩⟩⟩
    · cases h
    · rw [lookup_eq_none.mpr hempty] at hinvalid
      cases hinvalid
    · obtain ⟨child, hlookup⟩ := routes_iff.mp hroutes
      rw [hlookup] at hinvalid
      cases hinvalid

/-- The calls at the end of a run. -/
lemma routed_of_serviced {registry : A32HostServiceRegistry α} {maxServiceCalls : ℕ}
    {traced : DispatchEnd (H × List (UInt32 × UInt32)) M}
    (h : traced.Serviced (registry.Tracing maxServiceCalls) (registry.Refused maxServiceCalls)) :
    registry.Routed maxServiceCalls traced.handlerState.2 traced.result := by
  have hend : traced.handlerState.2.length ≤ maxServiceCalls
      ∧ ∀ call ∈ traced.handlerState.2, call.1 = call.2 ∧ registry.Routes call.2 := by
    by_cases hunhandled : traced.result.error = some .serviceUnhandled
    · obtain ⟨_, -, hlimit, hcalls, -⟩ := h.unhandled hunhandled
      exact ⟨hlimit, hcalls⟩
    by_cases hfailed : traced.result.error = some .serviceFailed
    · obtain ⟨_, -, hlimit, hcalls, -⟩ := h.failed hfailed
      exact ⟨hlimit, hcalls⟩
    obtain ⟨hlength, hlimit, hcalls⟩ := h.kept hunhandled hfailed
    exact ⟨hlength.trans_le hlimit, hcalls⟩
  refine ⟨hend.2, hend.1, fun hunhandled hfailed => (h.kept hunhandled hfailed).1,
    fun hunhandled => ?_, fun hfailed => ?_⟩
  · obtain ⟨immediate, hfailing, -, -, hlast⟩ := h.unhandled hunhandled
    refine ⟨immediate, hfailing, ?_⟩
    rcases hlast with hcalled | ⟨hlength, hmissing, -⟩
    · exact .inr hcalled
    · exact .inl ⟨hmissing rfl, hlength⟩
  · obtain ⟨immediate, hfailing, -, -, hlast⟩ := h.failed hfailed
    refine ⟨immediate, hfailing, ?_⟩
    rcases hlast with hcalled | ⟨hlength, -, hinvalid⟩
    · exact .inr hcalled
    · obtain ⟨hsome, hroutes⟩ := hinvalid rfl
      exact .inl ⟨hsome, hroutes, hlength⟩

end A32HostServiceRegistry

/-- **Every service goes to the one handler that is registered for it.**  Trace the handlers
of a registry over a call of the dispatcher, which changes nothing.  Each handler was called
for the immediate of its own entry only, and no other entry has that immediate.  There were
at most as many calls as allowed, one for every service that is reported as handled, and at
most one more: the last one, for the immediate that is reported as unhandled or failed.  An
immediate without an entry is unhandled, and one with several entries or with an entry that
has no handler fails, both without a call. -/
theorem registry_routes (engine : A32Engine M)
    (registry : A32HostServiceRegistry (A32HostServiceHandler H M)) (memory : M)
    (request : ExecutionRequest) (state : H) (maxServiceCalls : ℕ) :
    ∃ final traced,
      executeA32WithServices engine memory request registry.handler state maxServiceCalls
          = some final
        ∧ executeA32WithServices engine memory request registry.traced.handler (state, [])
          maxServiceCalls = some traced
        ∧ traced.result = final.result ∧ traced.handlerState.1 = final.handlerState
        ∧ traced.memory = final.memory
        ∧ registry.Routed maxServiceCalls traced.handlerState.2 final.result := by
  have hengine : engine.Simulates engine Eq :=
    ⟨rfl, fun _ _ _ h => by rw [h], fun _ _ _ h => by rw [h], fun _ _ _ h => by rw [h]⟩
  have hstate : ((state, []) : H × List (UInt32 × UInt32)).1 = state := rfl
  obtain ⟨traced, final, htraced, hrun, hend⟩ := executeA32WithServices_simulation hengine
    traced_simulates (rfl : memory = memory) hstate request maxServiceCalls
  obtain ⟨traced', htraced', hserviced⟩ := executeA32WithServices_serviced
    (registry.traced_handler_servesAt maxServiceCalls)
    (⟨rfl, Nat.zero_le _, fun _ h => absurd h List.not_mem_nil⟩ :
      registry.Tracing maxServiceCalls 0 (state, [])) engine memory request
  cases Option.some.inj (htraced.symm.trans htraced')
  refine ⟨final, traced, hrun, htraced, hend.result, hend.handlerState, hend.memory, ?_⟩
  rw [← hend.result]
  exact routed_of_serviced hserviced

end LibA32Android

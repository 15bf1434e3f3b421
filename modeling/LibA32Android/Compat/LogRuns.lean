/-
The log service over dispatched runs.

* `A32AndroidLogWriteService.program_spans`: the service reads one byte at a time;
* `A32AndroidLogSink.replay`: the sink after some calls;
* `log_run`: over a dispatched run, with the service in a registry beside other handlers,
  the sink gets the calls of the services that were handled and no others;
* `log_noninterference`: what it gets depends on the bytes that the guest may read, and not
  on the backend.
-/
import LibA32Android.Compat.AndroidLogWrite
import LibA32Android.Runtime.GuestIsolation
import LibA32Android.Runtime.ServiceRegistry

namespace LibA32Android

open Foundations

variable {M S T : Type}

/-! ### What the service reads -/

lemma readByte_spans (address : UInt32) :
    (readByte address).Makes fun call => 0 < call.length :=
  .bind (.call (MemoryCall.read address 1) _ Nat.zero_lt_one fun _ => .done _) fun _ => .done _

lemma readCStringFrom_spans (address : UInt32) (maxPayloadBytes offset : ℕ)
    (output : ByteString) :
    (readCStringFrom address maxPayloadBytes offset output).Makes
      fun call => 0 < call.length := by
  fun_induction readCStringFrom address maxPayloadBytes offset output with
  | case1 offset output hbeyond => exact .done _
  | case2 offset output hwithin ih =>
    refine .bind (readByte_spans _) fun byte => ?_
    rcases byte with _ | byte
    · exact .done _
    · dsimp only
      split
      · exact .done _
      · split
        · exact .done _
        · exact ih byte ‹_›

namespace A32AndroidLogWriteService

/-- The service reads one byte at a time. -/
lemma program_spans (service : A32AndroidLogWriteService S) :
    service.program.Makes fun call => 0 < call.length := by
  intro state svcImmediate regs cpsr
  have htag : (service.readTag regs.r1).Makes fun call => 0 < call.length := by
    rw [readTag]
    split
    · exact .bind (readCStringFrom_spans ..) fun _ => .done _
    · exact .done _
  have htext : (service.readText regs.r2).Makes fun call => 0 < call.length := by
    rw [readText]
    split
    · exact .done _
    · exact readCStringFrom_spans ..
  dsimp only [program]
  split
  · exact .done _
  · refine .bind htag fun tag => ?_
    rcases tag with _ | tag
    · exact .done _
    · refine .bind htext fun text => ?_
      rcases text with _ | text
      · exact .done _
      · exact .done _

end A32AndroidLogWriteService

/-! ### The sink over a run -/

/-- The sink after some calls. -/
def A32AndroidLogSink.replay (sink : A32AndroidLogSink S) (state : S) (calls : List LogCall) : S :=
  calls.foldl (fun state call => (sink.write state call.priority call.tag call.text).2) state

/-- The strings of a call are within the limits and have no terminator in them. -/
structure LogCall.Within (options : A32AndroidLogWriteOptions) (call : LogCall) : Prop where
  tag_length : ∀ tag, call.tag = some tag → tag.length ≤ options.maxTagBytes
  tag_nonzero : ∀ tag, call.tag = some tag → 0 ∉ tag
  text_length : call.text.length ≤ options.maxTextBytes
  text_nonzero : 0 ∉ call.text

namespace A32HostServiceHandler

/-- A handler beside others, with a state of its own. -/
def onFirst (handler : A32HostServiceHandler S M) : A32HostServiceHandler (S × T) M where
  handle state memory immediate regs cpsr :=
    let reply := handler.handle state.1 memory immediate regs cpsr
    ⟨reply.disposition, (reply.handlerState, state.2), reply.memory, reply.regs, reply.cpsr⟩

/-- The others. -/
def onSecond (handler : A32HostServiceHandler T M) : A32HostServiceHandler (S × T) M where
  handle state memory immediate regs cpsr :=
    let reply := handler.handle state.2 memory immediate regs cpsr
    ⟨reply.disposition, (state.1, reply.handlerState), reply.memory, reply.regs, reply.cpsr⟩

end A32HostServiceHandler

namespace A32AndroidLogWriteService

variable [GuestMemory M]

/-- A registry with the service, which is `none`, and other handlers; all but the service have
no access to the sink. -/
def registered (service : A32AndroidLogWriteService S)
    (registry : A32HostServiceRegistry (Option (A32HostServiceHandler T M))) :
    A32HostServiceRegistry (A32HostServiceHandler (S × T) M) :=
  registry.map fun _ child => child.elim service.handler.onFirst A32HostServiceHandler.onSecond

/-- The service has no other handlers beside it. -/
def Alone (registry : A32HostServiceRegistry (Option (A32HostServiceHandler T M))) : Prop :=
  ∀ entry ∈ registry.entries, ∀ other, entry.handler ≠ .child (some other)

/-- The calls that the sink got in the first `n` services of a run. -/
structure Logged (service : A32AndroidLogWriteService S)
    (registry : A32HostServiceRegistry (Option (A32HostServiceHandler T M))) (start : S)
    (maxServiceCalls n : ℕ) (state : S) (calls : List LogCall) : Prop where
  sink : state = service.sink.replay start calls
  within : ∀ call ∈ calls, call.Within service.options
  length_le : calls.length ≤ n
  limit : n ≤ maxServiceCalls
  alone : Alone registry → calls.length = n

variable {service : A32AndroidLogWriteService S}
  {registry : A32HostServiceRegistry (Option (A32HostServiceHandler T M))} {start state : S}
  {maxServiceCalls n : ℕ} {calls : List LogCall} {memory : M} {immediate : UInt32}
  {regs : CoreRegisters} {cpsr : UInt32}

omit [GuestMemory M] in
/-- A service of another handler. -/
lemma Logged.other (h : service.Logged registry start maxServiceCalls n state calls)
    (hn : n < maxServiceCalls) (hother : ¬Alone registry) :
    service.Logged registry start maxServiceCalls (n + 1) state calls :=
  ⟨h.sink, h.within, h.length_le.trans (Nat.le_succ n), hn, fun halone => absurd halone hother⟩

/-- What a string of the guest is within. -/
lemma Arguments.within {tag : Option ByteString} {text : ByteString}
    (h : service.Arguments memory regs tag text) (priority : Int32) :
    LogCall.Within service.options ⟨priority, tag, text⟩ where
  tag_length := by
    rintro string rfl
    exact h.tag.2.length_le
  tag_nonzero := by
    rintro string rfl
    exact h.tag.2.nonzero
  text_length := h.text.length_le
  text_nonzero := h.text.nonzero

/-- A service that the log service handled is one call of the sink. -/
lemma Logged.handled (h : service.Logged registry start maxServiceCalls n state calls)
    (hn : n < maxServiceCalls)
    (hhandled : (service.handle state memory immediate regs cpsr).disposition = .handled) :
    ∃ call, service.Logged registry start maxServiceCalls (n + 1)
      (service.handle state memory immediate regs cpsr).handlerState (calls ++ [call]) := by
  by_cases himmediate : immediate = service.svcImmediate
  · subst himmediate
    by_cases harguments : ∃ tag text, service.Arguments memory regs tag text
    · obtain ⟨tag, text, harguments⟩ := harguments
      refine ⟨⟨regs.r0.toInt32, tag, text⟩, ?_, ?_, ?_, hn, ?_⟩
      · rw [handle_of_arguments harguments, h.sink, A32AndroidLogSink.replay,
          A32AndroidLogSink.replay, List.foldl_append]
        rfl
      · intro call hcall
        rcases List.mem_append.mp hcall with hbefore | hlast
        · exact h.within call hbefore
        · rw [List.mem_singleton.mp hlast]
          exact harguments.within _
      · rw [List.length_append, List.length_singleton]
        exact Nat.succ_le_succ h.length_le
      · intro halone
        rw [List.length_append, List.length_singleton, h.alone halone]
    · rw [handle_of_not_arguments harguments] at hhandled
      cases hhandled
  · rw [handle_of_ne himmediate] at hhandled
    cases hhandled

/-- A service that it did not handle leaves the sink alone. -/
lemma handlerState_of_refused
    (hrefused : (service.handle state memory immediate regs cpsr).disposition ≠ .handled) :
    (service.handle state memory immediate regs cpsr).handlerState = state := by
  by_cases himmediate : immediate = service.svcImmediate
  · subst himmediate
    by_cases harguments : ∃ tag text, service.Arguments memory regs tag text
    · obtain ⟨tag, text, harguments⟩ := harguments
      rw [handle_of_arguments harguments] at hrefused
      exact absurd rfl hrefused
    · rw [handle_of_not_arguments harguments]
  · rw [handle_of_ne himmediate]

/-- A SVC of a registry with the service. -/
lemma registered_servesAt (service : A32AndroidLogWriteService S)
    (registry : A32HostServiceRegistry (Option (A32HostServiceHandler T M))) (start : S)
    (maxServiceCalls : ℕ) (immediate : UInt32) :
    (service.registered registry).handler.ServesAt maxServiceCalls
      (fun n state => ∃ calls, service.Logged registry start maxServiceCalls n state.1 calls)
      (fun n _ _ state => ∃ calls, service.Logged registry start maxServiceCalls n state.1 calls)
      immediate := by
  refine A32HostServiceRegistry.map_servesAt (fun child hfound => ?_) (fun _ _ _ h _ => h)
    fun _ _ _ h _ => h
  cases child with
  | none =>
    refine ⟨fun hn h hhandled => ?_,
      fun {n state memory regs cpsr disposition} hn h hdisposition hne => ?_⟩
    · obtain ⟨calls, hlogged⟩ := h
      obtain ⟨call, hcall⟩ := hlogged.handled hn hhandled
      exact ⟨calls ++ [call], hcall⟩
    · obtain ⟨calls, hlogged⟩ := h
      have hrefused : (service.handle state.1 memory immediate regs cpsr).disposition ≠ .handled :=
        ne_of_eq_of_ne hdisposition hne
      have hstate : (service.handle state.1 memory immediate regs cpsr).handlerState = state.1 :=
        handlerState_of_refused hrefused
      exact ⟨calls, by rwa [← hstate] at hlogged⟩
  | some other =>
    -- the entry of the other handler
    have hother : ¬Alone registry := by
      intro halone
      have hmem : (⟨immediate, .child (some other)⟩ :
          A32HostServiceRegistryEntry (Option (A32HostServiceHandler T M)))
          ∈ registry.matching immediate := by
        rw [A32HostServiceRegistry.lookup_eq_child.mp hfound]
        exact List.mem_singleton_self _
      exact halone _ (List.mem_filter.mp hmem).1 other rfl
    refine ⟨fun hn h _ => ?_, fun hn h _ _ => h⟩
    obtain ⟨calls, hlogged⟩ := h
    exact ⟨calls, hlogged.other hn hother⟩

end A32AndroidLogWriteService

open A32AndroidLogWriteService in
/-- **The sink gets one call for each log service, and no others.**  Let the log service stand
in a registry, with any other handlers that have no access to the sink.  After a call of the
dispatcher, with any engine over any memory, the sink is as some calls have left it, one after
the other, with strings within the limits and without a terminator in them.  There are no
more of them than services that are reported as handled, and just as many when the registry
has no other handlers. -/
theorem log_run [GuestMemory M] (engine : A32Engine M) (service : A32AndroidLogWriteService S)
    (registry : A32HostServiceRegistry (Option (A32HostServiceHandler T M))) (memory : M)
    (request : ExecutionRequest) (start : S) (others : T) (maxServiceCalls : ℕ) :
    ∃ final, executeA32WithServices engine memory request (service.registered registry).handler
        (start, others) maxServiceCalls = some final
      ∧ ∃ calls : List LogCall, final.handlerState.1 = service.sink.replay start calls
        ∧ (∀ call ∈ calls, call.Within service.options)
        ∧ calls.length ≤ final.result.servicesHandled
        ∧ final.result.servicesHandled ≤ maxServiceCalls
        ∧ (Alone registry → calls.length = final.result.servicesHandled) := by
  have hstart : ∃ calls,
      service.Logged registry start maxServiceCalls 0 ((start, others) : S × T).1 calls :=
    ⟨[], rfl, fun _ h => absurd h List.not_mem_nil, Nat.le_refl 0, Nat.zero_le _, fun _ => rfl⟩
  obtain ⟨final, hrun, hserviced⟩ := executeA32WithServices_serviced
    (registered_servesAt service registry start maxServiceCalls) hstart engine memory request
  obtain ⟨calls, hlogged⟩ := hserviced.always fun h => h
  exact ⟨final, hrun, calls, hlogged.sink, hlogged.within, hlogged.length_le, hlogged.limit,
    hlogged.alone⟩

/-! ### What the log depends on -/

namespace ServiceProgram

/-- A program beside others, with a state of its own. -/
def onFirst (program : ServiceProgram S) : ServiceProgram (S × T) where
  handle state immediate regs cpsr := do
    let outcome ← program.handle state.1 immediate regs cpsr
    return ⟨outcome.disposition, (outcome.handlerState, state.2), outcome.regs, outcome.cpsr⟩

/-- The others. -/
def onSecond (program : ServiceProgram T) : ServiceProgram (S × T) where
  handle state immediate regs cpsr := do
    let outcome ← program.handle state.2 immediate regs cpsr
    return ⟨outcome.disposition, (state.1, outcome.handlerState), outcome.regs, outcome.cpsr⟩

lemma onFirst_on [GuestMemory M] (program : ServiceProgram S) :
    (program.onFirst : ServiceProgram (S × T)).on M = (program.on M).onFirst := by
  rw [on, against, A32HostServiceHandler.onFirst]
  congr 1
  funext state memory immediate regs cpsr
  dsimp only [onFirst]
  rw [Interaction.run_bind]
  rfl

lemma onSecond_on [GuestMemory M] (program : ServiceProgram T) :
    (program.onSecond : ServiceProgram (S × T)).on M = (program.on M).onSecond := by
  rw [on, against, A32HostServiceHandler.onSecond]
  congr 1
  funext state memory immediate regs cpsr
  dsimp only [onSecond]
  rw [Interaction.run_bind]
  rfl

variable {ok : MemoryCall → Prop}

lemma Makes.onFirst {program : ServiceProgram S} (h : program.Makes ok) :
    (program.onFirst : ServiceProgram (S × T)).Makes ok :=
  fun state immediate regs cpsr => .bind (h state.1 immediate regs cpsr) fun _ => .done _

lemma Makes.onSecond {program : ServiceProgram T} (h : program.Makes ok) :
    (program.onSecond : ServiceProgram (S × T)).Makes ok :=
  fun state immediate regs cpsr => .bind (h state.2 immediate regs cpsr) fun _ => .done _

end ServiceProgram

namespace A32AndroidLogWriteService

/-- The service and other programs in a registry, over a guest memory. -/
def servicesOn (service : A32AndroidLogWriteService S)
    (registry : A32HostServiceRegistry (Option (ServiceProgram T))) (M : Type) [GuestMemory M] :
    A32HostServiceHandler (S × T) M :=
  (service.registered (registry.map fun _ child => child.map (·.on M))).handler

/-- The same as one program. -/
def servicesProgram (service : A32AndroidLogWriteService S)
    (registry : A32HostServiceRegistry (Option (ServiceProgram T))) : ServiceProgram (S × T) :=
  (registry.map fun _ child => child.elim service.program.onFirst ServiceProgram.onSecond).program

lemma servicesProgram_on [GuestMemory M] (service : A32AndroidLogWriteService S)
    (registry : A32HostServiceRegistry (Option (ServiceProgram T))) :
    (service.servicesProgram registry).on M = service.servicesOn registry M := by
  rw [servicesProgram, A32HostServiceRegistry.program_on, servicesOn, registered,
    A32HostServiceRegistry.map_map, A32HostServiceRegistry.map_map]
  congr 2
  funext _ child
  cases child with
  | none =>
      rw [Option.elim_none, ServiceProgram.onFirst_on]
      rfl
  | some other => exact other.onSecond_on

/-- With other programs that access non-empty spans, so does the whole. -/
lemma servicesProgram_spans (service : A32AndroidLogWriteService S)
    {registry : A32HostServiceRegistry (Option (ServiceProgram T))}
    (hothers : ∀ entry ∈ registry.entries, ∀ other, entry.handler = .child (some other) →
      other.Makes fun call => 0 < call.length) :
    (service.servicesProgram registry).Makes fun call => 0 < call.length := by
  refine A32HostServiceRegistry.program_makes fun entry hentry program hprogram => ?_
  obtain ⟨⟨immediate, pointer⟩, hmem, rfl⟩ := List.mem_map.mp hentry
  rcases pointer with _ | _ | _ | other
  · cases hprogram
  · cases hprogram
  · cases hprogram
    exact service.program_spans.onFirst
  · cases hprogram
    exact (hothers _ hmem other rfl).onSecond

end A32AndroidLogWriteService

/-- **The log depends on what the guest may read, and on nothing else.**  Let the log service
stand in a registry with any other handlers that reach memory through its interface, over an
engine that does so through the callbacks.  On two memories with the same pages that agree on
the bytes that can be read or fetched, a call of the dispatcher has the same result and leaves
the same sink: no other byte gets into the log.  With handlers that access non-empty spans,
this is so, too, on the contiguous backend and on the sparse one with the same range and
bytes. -/
theorem log_noninterference (engine : CallbackEngine) (service : A32AndroidLogWriteService S)
    (registry : A32HostServiceRegistry (Option (ServiceProgram T))) (request : ExecutionRequest)
    (start : S) (others : T) (maxServiceCalls : ℕ) :
    (∀ m m' : MappedGuestMemory, m.LooksAlike m' → ∃ final final',
      executeA32WithServices (engine.on MappedGuestMemory) m request
          (service.servicesOn registry MappedGuestMemory) (start, others) maxServiceCalls
          = some final
        ∧ executeA32WithServices (engine.on MappedGuestMemory) m' request
          (service.servicesOn registry MappedGuestMemory) (start, others) maxServiceCalls
          = some final'
        ∧ final.result = final'.result ∧ final.handlerState = final'.handlerState)
      ∧ ((∀ entry ∈ registry.entries, ∀ other, entry.handler = .child (some other) →
          other.Makes fun call => 0 < call.length) →
        ∀ linear mapped, AgreeFully linear mapped → ∃ final final',
          executeA32WithServices (engine.on LinearGuestMemory) linear request
              (service.servicesOn registry LinearGuestMemory) (start, others) maxServiceCalls
              = some final
            ∧ executeA32WithServices (engine.on MappedGuestMemory) mapped request
              (service.servicesOn registry MappedGuestMemory) (start, others) maxServiceCalls
              = some final'
            ∧ final.result = final'.result ∧ final.handlerState = final'.handlerState) := by
  refine ⟨fun m m' h => ?_, fun hothers linear mapped h => ?_⟩
  · rw [← A32AndroidLogWriteService.servicesProgram_on]
    obtain ⟨final, final', hrun, hrun', hend⟩ := ServiceProgram.dispatch_in_step
      (fun _ _ _ _ => .of_true _) (fun call _ _ _ h => h.respond call)
      (fun call _ _ _ h => h.respond call) engine h (start, others) request maxServiceCalls
    exact ⟨final, final', hrun, hrun', hend.result, hend.handlerState⟩
  · rw [← A32AndroidLogWriteService.servicesProgram_on,
      ← A32AndroidLogWriteService.servicesProgram_on]
    obtain ⟨final, final', hrun, hrun', hend⟩ := ServiceProgram.dispatch_in_step
      (service.servicesProgram_spans hothers) (fun _ _ _ hspan h => h.respond hspan)
      (fun _ _ _ hspan h => h.respond hspan) engine h (start, others) request maxServiceCalls
    exact ⟨final, final', hrun, hrun', hend.result, hend.handlerState⟩

/-- An instruction set with one instruction: SVC 7, to log the string at `0x1000`. -/
def logEngine : CallbackEngine where
  step jit := .call (.callSvc 7) fun _ => .done { jit with regs := jit.regs.setPc 4 }
  freshFpscr := 0

/-- The log as a list. -/
def listService : A32AndroidLogWriteService (List LogCall) where
  svcImmediate := 7
  sink := { write := fun log priority tag text => (1, log ++ [⟨priority, tag, text⟩]) }
  options := ⟨16, 64⟩

theorem log_noninterference_page :
    let registry : A32HostServiceRegistry (Option (ServiceProgram Unit)) := ⟨[⟨7, .child none⟩]⟩
    let request : ExecutionRequest :=
      { regs := Vector.ofFn fun i => if i.val = 2 then 0x1000 else 0, stopPc := some 4 }
    (∃ final final',
      executeA32WithServices (logEngine.on MappedGuestMemory) onePage request
          (listService.servicesOn registry MappedGuestMemory) ([], ()) 1 = some final
        ∧ executeA32WithServices (logEngine.on MappedGuestMemory) onePageMore request
          (listService.servicesOn registry MappedGuestMemory) ([], ()) 1 = some final'
        ∧ final.handlerState = final'.handlerState)
      ∧ ∃ linear mapped final final',
        executeA32WithServices (logEngine.on LinearGuestMemory) linear request
            (listService.servicesOn registry LinearGuestMemory) ([], ()) 1 = some final
          ∧ executeA32WithServices (logEngine.on MappedGuestMemory) mapped request
            (listService.servicesOn registry MappedGuestMemory) ([], ()) 1 = some final'
          ∧ final.handlerState = final'.handlerState := by
  intro registry request
  obtain ⟨halike, hbackends⟩ :=
    log_noninterference logEngine listService registry request [] () 1
  have hothers : ∀ entry ∈ registry.entries, ∀ other, entry.handler = .child (some other) →
      other.Makes fun call => 0 < call.length := by
    intro entry hentry other hother
    rw [List.mem_singleton.mp hentry] at hother
    cases hother
  obtain ⟨final, final', hrun, hrun', -, hstate⟩ := halike onePage onePageMore onePage_looksAlike
  obtain ⟨linear, mapped, -, hagree⟩ := exists_agreeFully
  obtain ⟨final₁, final₁', hrun₁, hrun₁', -, hstate₁⟩ := hbackends hothers linear mapped hagree
  exact ⟨⟨final, final', hrun, hrun', hstate⟩, linear, mapped, final₁, final₁', hrun₁, hrun₁',
    hstate₁⟩

end LibA32Android

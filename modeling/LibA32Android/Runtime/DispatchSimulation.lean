/-
Dispatched runs in step.

* `A32HostServiceHandler.Simulates`: handlers that do the same on related memories and
  related states of their own;
* `Machine.Related`, `DispatchEnd.Related`: two machines and two ends of a run, in step;
* `Machine.Related.referenceRun`, `executeA32WithServices_simulation`: engines and handlers
  that do the same give runs that stay in step;
* `ServiceProgram`: a handler that reaches memory through its `GuestMemory&` only, and
  `ServiceProgram.dispatch_in_step`: for such a handler it is enough that the calls of the
  memory interface are answered alike.
-/
import LibA32Android.Cpu.Callbacks
import LibA32Android.Runtime.ServiceTransparency

namespace LibA32Android

open Foundations

variable {H H' M M' : Type}

/-! ### Relations -/

/-- The replies are the same, up to related states and memories. -/
structure ServiceReply.Related (q : H → H' → Prop) (r : M → M' → Prop) (reply : ServiceReply H M)
    (reply' : ServiceReply H' M') : Prop where
  disposition : reply.disposition = reply'.disposition
  handlerState : q reply.handlerState reply'.handlerState
  memory : r reply.memory reply'.memory
  regs : reply.regs = reply'.regs
  cpsr : reply.cpsr = reply'.cpsr

/-- The handlers do the same on related states and memories. -/
def A32HostServiceHandler.Simulates (handler : A32HostServiceHandler H M)
    (handler' : A32HostServiceHandler H' M') (q : H → H' → Prop) (r : M → M' → Prop) : Prop :=
  ∀ state state' memory memory' immediate regs cpsr, q state state' → r memory memory' →
    (handler.handle state memory immediate regs cpsr).Related q r
      (handler'.handle state' memory' immediate regs cpsr)

/-- The machines are in step. -/
structure Machine.Related (q : H → H' → Prop) (r : M → M' → Prop) (m : Machine H M)
    (m' : Machine H' M') : Prop where
  jit : m.jit = m'.jit
  memory : r m.memory m'.memory
  handlerState : q m.handlerState m'.handlerState
  instructionsExecuted : m.instructionsExecuted = m'.instructionsExecuted
  servicesHandled : m.servicesHandled = m'.servicesHandled

/-- The runs end alike. -/
structure DispatchEnd.Related (q : H → H' → Prop) (r : M → M' → Prop) (final : DispatchEnd H M)
    (final' : DispatchEnd H' M') : Prop where
  result : final.result = final'.result
  handlerState : q final.handlerState final'.handlerState
  memory : r final.memory final'.memory

/-! ### Runs -/

section Runs

variable {q : H → H' → Prop} {r : M → M' → Prop} {engine : A32Engine M} {engine' : A32Engine M'}
  {handler : A32HostServiceHandler H M} {handler' : A32HostServiceHandler H' M'}
  {maxServiceCalls : ℕ} {stopPc : Option UInt32} {resume : JitState → JitState}
  {m : Machine H M} {m' : Machine H' M'}

namespace Machine.Related

lemma stop (h : m.Related q r m') (error : Option A32ServiceDispatchError)
    (failing : Option UInt32) (reached : Bool) :
    (m.stop error failing reached).Related q r (m'.stop error failing reached) := by
  refine ⟨?_, h.handlerState, h.memory⟩
  rw [Machine.stop, Machine.stop, h.jit, h.instructionsExecuted, h.servicesHandled]

/-- A reply, before the service is counted. -/
lemma reply (h : m.Related q r m') {reply : ServiceReply H M} {reply' : ServiceReply H' M'}
    (hreply : reply.Related q r reply') :
    (m.reply resume reply).Related q r (m'.reply resume reply') := by
  refine ⟨?_, hreply.memory, hreply.handlerState, h.instructionsExecuted, h.servicesHandled⟩
  rw [Machine.reply, Machine.reply, h.jit, hreply.regs, hreply.cpsr]

lemma serve (h : m.Related q r m') (hhandler : handler.Simulates handler' q r)
    (immediate : UInt32) :
    Sum.LiftRel (Machine.Related q r) (DispatchEnd.Related q r)
      (m.serve handler maxServiceCalls resume immediate)
      (m'.serve handler' maxServiceCalls resume immediate) := by
  have hreply := hhandler m.handlerState m'.handlerState m.memory m'.memory immediate m'.jit.regs
    m'.jit.cpsr h.handlerState h.memory
  rw [Machine.serve, Machine.serve, h.servicesHandled, h.jit]
  by_cases hlimit : m'.servicesHandled ≥ maxServiceCalls
  · rw [if_pos hlimit, if_pos hlimit]
    exact .inr (h.stop _ _ _)
  · rw [if_neg hlimit, if_neg hlimit]
    have hnext : (m.reply resume _).Related q r (m'.reply resume _) := h.reply hreply
    dsimp only
    rw [hreply.disposition]
    cases (handler'.handle m'.handlerState m'.memory immediate m'.jit.regs
      m'.jit.cpsr).disposition with
    | unhandled => exact .inr (hnext.stop _ _ _)
    | failed => exact .inr (hnext.stop _ _ _)
    | handled =>
        exact .inl ⟨hnext.jit, hnext.memory, hnext.handlerState, hnext.instructionsExecuted,
          congrArg (· + 1) hnext.servicesHandled⟩

lemma step (h : m.Related q r m') (hengine : engine.Simulates engine' r)
    (hhandler : handler.Simulates handler' q r) :
    Sum.LiftRel (Machine.Related q r) (DispatchEnd.Related q r)
      (m.step engine handler maxServiceCalls resume)
      (m'.step engine' handler' maxServiceCalls resume) := by
  have hjit := hengine.jit m'.jit m.memory m'.memory h.memory
  have hcallbacks := hengine.callbacks m'.jit m.memory m'.memory h.memory
  have hmemory := hengine.memory m'.jit m.memory m'.memory h.memory
  rw [Machine.step, Machine.step, h.jit]
  dsimp only
  rw [hcallbacks]
  -- the machines after the instruction
  have hnext : Machine.Related q r
      { m with
        jit := (engine.step m'.jit m.memory).1, memory := (engine.step m'.jit m.memory).2.1
        instructionsExecuted := m.instructionsExecuted + 1 }
      { m' with
        jit := (engine'.step m'.jit m'.memory).1, memory := (engine'.step m'.jit m'.memory).2.1
        instructionsExecuted := m'.instructionsExecuted + 1 } :=
    ⟨hjit, hmemory, h.handlerState, congrArg (· + 1) h.instructionsExecuted, h.servicesHandled⟩
  split
  · exact .inr (hnext.stop _ _ _)
  · cases (Environment.after (engine'.step m'.jit m'.memory).2.2 {}).svcImmediate with
    | some immediate => exact hnext.serve hhandler immediate
    | none =>
        dsimp only
        split
        · exact .inr (hnext.stop _ _ _)
        · exact .inl hnext

/-- **Engines and handlers that do the same give runs in step.** -/
lemma referenceRun (h : m.Related q r m') (hengine : engine.Simulates engine' r)
    (hhandler : handler.Simulates handler' q r) (n : ℕ) :
    (referenceRun engine handler maxServiceCalls stopPc resume n m).Related q r
      (LibA32Android.referenceRun engine' handler' maxServiceCalls stopPc resume n m') := by
  induction n generalizing m m' with
  | zero =>
      rw [LibA32Android.referenceRun, LibA32Android.referenceRun, h.jit]
      split
      · exact h.stop _ _ _
      · exact h.stop _ _ _
  | succ n ih =>
      rw [LibA32Android.referenceRun, LibA32Android.referenceRun, h.jit]
      split
      · exact h.stop _ _ _
      · exact elim_related_of_liftRel (h.step hengine hhandler) (fun _ _ hnext => ih hnext)
          fun _ _ hend => hend

end Machine.Related

/-- The dispatcher over engines and handlers that do the same. -/
lemma executeA32WithServices_simulation (hengine : engine.Simulates engine' r)
    (hhandler : handler.Simulates handler' q r) {memory : M} {memory' : M'} (h : r memory memory')
    {state : H} {state' : H'} (hstate : q state state') (request : ExecutionRequest)
    (maxServiceCalls : ℕ) :
    ∃ final final',
      executeA32WithServices engine memory request handler state maxServiceCalls = some final
        ∧ executeA32WithServices engine' memory' request handler' state' maxServiceCalls
          = some final'
        ∧ final.Related q r final' := by
  refine ⟨_, _, executeA32WithServices_eq_referenceRun engine memory request handler state _,
    executeA32WithServices_eq_referenceRun engine' memory' request handler' state' _, ?_⟩
  have hresume : freshResume engine = freshResume engine' := by
    funext jit
    rw [freshResume, freshResume, hengine.fresh]
  have hjit : engine.freshJit request = engine'.freshJit request := by
    rw [A32Engine.freshJit, A32Engine.freshJit, hengine.fresh]
  have hstart : (Machine.start engine memory request state).Related q r
      (Machine.start engine' memory' request state') := ⟨hjit, h, hstate, rfl, rfl⟩
  rw [hresume]
  exact hstart.referenceRun hengine hhandler _

end Runs

/-! ### Handlers behind the memory interface -/

/-- What a handler returns, and leaves in its state and its register parameters. -/
structure ServiceOutcome (H : Type) where
  disposition : A32HostServiceDisposition
  handlerState : H
  regs : CoreRegisters
  cpsr : UInt32

/-- The reply, with the memory that was left. -/
def ServiceOutcome.reply (outcome : ServiceOutcome H) (memory : M) : ServiceReply H M where
  disposition := outcome.disposition
  handlerState := outcome.handlerState
  memory := memory
  regs := outcome.regs
  cpsr := outcome.cpsr

/-- A handler that reaches memory through its `GuestMemory&` only. -/
structure ServiceProgram (H : Type) where
  handle : H → UInt32 → CoreRegisters → UInt32 → MemoryProgram (ServiceOutcome H)

namespace ServiceProgram

/-- The handler over memories that answer in a given way. -/
def against (program : ServiceProgram H) (answer : (call : MemoryCall) → M → call.Answer × M) :
    A32HostServiceHandler H M where
  handle state memory immediate regs cpsr :=
    let served := (program.handle state immediate regs cpsr).run answer memory
    served.1.reply served.2

/-- The handler over a guest memory. -/
def on (program : ServiceProgram H) (M : Type) [GuestMemory M] : A32HostServiceHandler H M :=
  program.against MemoryCall.respond

/-- Every call of the handler is `ok`. -/
def Makes (ok : MemoryCall → Prop) (program : ServiceProgram H) : Prop :=
  ∀ state immediate regs cpsr, (program.handle state immediate regs cpsr).Makes ok

variable {answer : (call : MemoryCall) → M → call.Answer × M}
  {answer' : (call : MemoryCall) → M' → call.Answer × M'} {r : M → M' → Prop}
  {ok : MemoryCall → Prop}

/-- **Handlers over memories that answer alike do the same.** -/
lemma against_simulates {program : ServiceProgram H} (hprogram : program.Makes ok)
    (hcall : ∀ call memory memory', ok call → r memory memory' →
      (answer call memory).1 = (answer' call memory').1
        ∧ r (answer call memory).2 (answer' call memory').2) :
    (program.against answer).Simulates (program.against answer') Eq r := by
  rintro state state' memory memory' immediate regs cpsr rfl h
  obtain ⟨hvalue, hmemory⟩ :=
    Interaction.run_simulation hcall (hprogram state immediate regs cpsr) h
  simp only [against, hvalue]
  exact ⟨rfl, rfl, hmemory, rfl, rfl⟩

/-- **Dispatched runs over memories that answer alike are in step**: those that the engine
asks for non-empty spans, and the handler for what it asks. -/
lemma dispatch_in_step {program : ServiceProgram H} (hprogram : program.Makes ok)
    {engineAnswer : (call : MemoryCall) → M → call.Answer × M}
    {engineAnswer' : (call : MemoryCall) → M' → call.Answer × M'}
    (hengine : ∀ call memory memory', 0 < call.length → r memory memory' →
      (engineAnswer call memory).1 = (engineAnswer' call memory').1
        ∧ r (engineAnswer call memory).2 (engineAnswer' call memory').2)
    (hcall : ∀ call memory memory', ok call → r memory memory' →
      (answer call memory).1 = (answer' call memory').1
        ∧ r (answer call memory).2 (answer' call memory').2)
    (engine : CallbackEngine) {memory : M} {memory' : M'} (h : r memory memory') (state : H)
    (request : ExecutionRequest) (maxServiceCalls : ℕ) :
    ∃ final final',
      executeA32WithServices (engine.against engineAnswer) memory request (program.against answer)
          state maxServiceCalls = some final
        ∧ executeA32WithServices (engine.against engineAnswer') memory' request
          (program.against answer') state maxServiceCalls = some final'
        ∧ final.Related Eq r final' :=
  executeA32WithServices_simulation (engine.against_simulates hengine)
    (against_simulates hprogram hcall) h rfl request maxServiceCalls

end ServiceProgram

end LibA32Android

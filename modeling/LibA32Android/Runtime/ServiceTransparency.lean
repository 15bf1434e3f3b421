/-
The dispatcher and the uninterrupted machine.

* `referenceRun`: one machine state, stepped under the whole budget, with the handler
  called at each SVC; `resume` says what the machine goes on with after a service;
* `transparentResume`: everything but the core registers and the CPSR is as the SVC left
  it; `freshResume`: the extension registers and the FPSCR are those of a new `Jit`;
* `referenceRun_eq_afterExecute`: the machine up to the end of a slice;
* `executeA32WithServices_reference`: the dispatcher is the machine that resumes afresh,
  and the transparent one when the engine does not use the extension registers and the
  FPSCR; `executeA32WithServices_not_transparent` is a program for which it is not.
-/
import LibA32Android.Runtime.ServiceDispatch

namespace LibA32Android

open Foundations

variable {H M : Type}

/-! ### The uninterrupted machine -/

/-- The machine: the guest, the handler, and the two counters. -/
structure Machine (H M : Type) where
  jit : JitState
  memory : M
  handlerState : H
  instructionsExecuted : ℕ := 0
  servicesHandled : ℕ := 0

/-- The end of a run in a machine state. -/
def Machine.stop (m : Machine H M) (error : Option A32ServiceDispatchError)
    (failingSvcImmediate : Option UInt32 := none) (stopPcReached : Bool := false) :
    DispatchEnd H M where
  result :=
    { error, stopPcReached, failingSvcImmediate
      regs := m.jit.regs, cpsr := m.jit.cpsr
      instructionsExecuted := m.instructionsExecuted, servicesHandled := m.servicesHandled }
  handlerState := m.handlerState
  memory := m.memory

/-- The machine after a call of the handler, which replaces the core registers and the
CPSR; `resume` is what it does with the rest of the state. -/
def Machine.reply (m : Machine H M) (resume : JitState → JitState) (r : ServiceReply H M) :
    Machine H M :=
  { m with
    jit := { resume m.jit with regs := r.regs, cpsr := r.cpsr }
    memory := r.memory, handlerState := r.handlerState }

section Run

variable (engine : A32Engine M) (handler : A32HostServiceHandler H M) (maxServiceCalls : ℕ)
  (stopPc : Option UInt32) (resume : JitState → JitState)

/-- A SVC of the machine. -/
def Machine.serve (m : Machine H M) (immediate : UInt32) : Machine H M ⊕ DispatchEnd H M :=
  if m.servicesHandled ≥ maxServiceCalls then
    .inr (m.stop (some .serviceLimitExceeded) (some immediate))
  else
    let r := handler.handle m.handlerState m.memory immediate m.jit.regs m.jit.cpsr
    let m := m.reply resume r
    match r.disposition with
    | .unhandled => .inr (m.stop (some .serviceUnhandled) (some immediate))
    | .failed => .inr (m.stop (some .serviceFailed) (some immediate))
    | .handled => .inl { m with servicesHandled := m.servicesHandled + 1 }

/-- One instruction of the machine, a SVC with its service. -/
def Machine.step (m : Machine H M) : Machine H M ⊕ DispatchEnd H M :=
  let (jit, memory, callbacks) := engine.step m.jit m.memory
  let m := { m with jit, memory, instructionsExecuted := m.instructionsExecuted + 1 }
  let environment := Environment.after callbacks {}
  if environment.memoryFault then .inr (m.stop (some .memoryFault))
  else
    match environment.svcImmediate with
    | some immediate => m.serve handler maxServiceCalls resume immediate
    | none =>
      if environment.exceptionRaised then .inr (m.stop (some .cpuException)) else .inl m

/-- The run of the machine under a budget. -/
def referenceRun : ℕ → Machine H M → DispatchEnd H M
  | 0, m =>
    if atStopPc stopPc m.jit.regs then m.stop none none true
    else m.stop (if stopPc.isSome then some .instructionLimitExceeded else none)
  | left + 1, m =>
    if atStopPc stopPc m.jit.regs then m.stop none none true
    else (m.step engine handler maxServiceCalls resume).elim (referenceRun left) id

end Run

/-- A machine at its stop PC is done. -/
lemma referenceRun_of_stop {engine : A32Engine M} {handler : A32HostServiceHandler H M}
    {maxServiceCalls : ℕ} {stopPc : Option UInt32} {resume : JitState → JitState}
    {m : Machine H M} (h : atStopPc stopPc m.jit.regs = true) (left : ℕ) :
    referenceRun engine handler maxServiceCalls stopPc resume left m = m.stop none none true := by
  cases left with
  | zero => rw [referenceRun, if_pos h]
  | succ left => rw [referenceRun, if_pos h]

/-- Going on with the rest of the guest state as the SVC left it. -/
def transparentResume (jit : JitState) : JitState := jit

/-- Going on with the rest of the guest state of a new `Jit`. -/
def freshResume (engine : A32Engine M) (jit : JitState) : JitState :=
  { jit with extRegs := Vector.replicate 64 0, fpscr := engine.freshFpscr }

/-- The machine of a request. -/
def Machine.start (engine : A32Engine M) (memory : M) (request : ExecutionRequest)
    (handlerState : H) : Machine H M where
  jit := engine.freshJit request
  memory := memory
  handlerState := handlerState

/-! ### Slices -/

section Slices

variable {engine : A32Engine M} {handler : A32HostServiceHandler H M} {maxServiceCalls : ℕ}
  {stopPc : Option UInt32} {d : Dispatch H M} {s : Execution M}

/-- The machine in the middle of a slice. -/
def Dispatch.machineAt (d : Dispatch H M) (s : Execution M) : Machine H M where
  jit := s.jit
  memory := s.memory
  handlerState := d.handlerState
  instructionsExecuted := d.result.instructionsExecuted + s.executed
  servicesHandled := d.result.servicesHandled

/-- The machine between two slices. -/
def Dispatch.machine (engine : A32Engine M) (d : Dispatch H M) : Machine H M where
  jit := engine.freshJit d.request
  memory := d.memory
  handlerState := d.handlerState
  instructionsExecuted := d.result.instructionsExecuted
  servicesHandled := d.result.servicesHandled

/-- No error is noted in the result while the loop runs. -/
structure Dispatch.Clean (d : Dispatch H M) : Prop where
  error : d.result.error = none
  failing : d.result.failingSvcImmediate = none

/-- The run that goes on after a slice. -/
def Dispatch.goesOn (engine : A32Engine M) (handler : A32HostServiceHandler H M)
    (maxServiceCalls : ℕ) (stopPc : Option UInt32) (d : Dispatch H M) : DispatchEnd H M :=
  referenceRun engine handler maxServiceCalls stopPc (freshResume engine)
    d.remainingInstructions (d.machine engine)

/-- A slice that ends without a report ends the run. -/
lemma afterExecute_quiet (hclean : d.Clean) (hquiet : s.environment = {})
    (hbudget : s.executed ≤ d.remainingInstructions) :
    afterExecute handler maxServiceCalls stopPc d (s.result, s.memory)
      = .inr (if s.stopPcReached then (d.machineAt s).stop none none true
          else (d.machineAt s).stop
            (if stopPc.isSome then some .instructionLimitExceeded else none)) := by
  obtain ⟨herror, hfailing⟩ := hclean
  rw [afterExecute]
  simp only [Execution.result, hquiet]
  rw [if_neg (by omega), if_neg Bool.false_ne_true, if_neg Bool.false_ne_true]
  cases hstop : s.stopPcReached with
  | true => simp [Machine.stop, Dispatch.machineAt, herror, hfailing]
  | false =>
      cases stopPc with
      | none => simp [sliceEnd, Machine.stop, Dispatch.machineAt, herror, hfailing]
      | some pc =>
          simp [sliceEnd, dispatchFailure, Machine.stop, Dispatch.machineAt]

/-- A new `Jit` from a reply is the machine that resumes afresh. -/
lemma freshJit_resumed (jit : JitState) (request : ExecutionRequest) (regs : CoreRegisters)
    (cpsr : UInt32) :
    engine.freshJit { request with
        regs := regs, entryPc := regs.pc, initialCpsr := some cpsr, stopPc := stopPc }
      = { freshResume engine jit with regs := regs, cpsr := cpsr } := by
  simp only [A32Engine.freshJit, freshResume, ExecutionRequest.startCpsr, Option.getD_some,
    CoreRegisters.setPc_pc]

/-- A SVC of a slice is a SVC of the machine. -/
lemma serviceTrap_elim (jit : JitState) (hclean : d.Clean) (hregs : d.result.regs = jit.regs)
    (hcpsr : d.result.cpsr = jit.cpsr) (hstop : d.result.stopPcReached = false)
    (immediate : UInt32) :
    (serviceTrap handler maxServiceCalls stopPc immediate d).elim
        (Dispatch.goesOn engine handler maxServiceCalls stopPc) id
      = (Machine.serve handler maxServiceCalls (freshResume engine)
          ⟨jit, d.memory, d.handlerState, d.result.instructionsExecuted,
            d.result.servicesHandled⟩ immediate).elim
        (referenceRun engine handler maxServiceCalls stopPc (freshResume engine)
          d.remainingInstructions) id := by
  obtain ⟨herror, hfailing⟩ := hclean
  rw [serviceTrap, Machine.serve]
  by_cases hlimit : d.result.servicesHandled ≥ maxServiceCalls
  · simp [if_pos hlimit, dispatchFailure, Machine.stop, hregs, hcpsr, hstop]
  · rw [if_neg hlimit, if_neg hlimit, hregs, hcpsr]
    dsimp only
    rcases handler.handle d.handlerState d.memory immediate jit.regs jit.cpsr with
      ⟨disposition, handlerState, memory, regs, cpsr⟩
    cases disposition with
    | unhandled => simp [dispatchFailure, Machine.stop, Machine.reply, hstop]
    | failed => simp [dispatchFailure, Machine.stop, Machine.reply, hstop]
    | handled =>
        dsimp only [Machine.reply]
        by_cases hreached : atStopPc stopPc regs = true
        · rw [if_pos hreached, Sum.elim_inl, referenceRun_of_stop hreached]
          simp [Machine.stop, herror, hfailing]
        · rw [if_neg hreached]
          by_cases hzero : d.remainingInstructions = 0
          · rw [if_pos hzero, Sum.elim_inl, hzero, referenceRun, if_neg hreached]
            cases stopPc with
            | none => simp [sliceEnd, Machine.stop, herror, hfailing, hstop]
            | some pc => simp [sliceEnd, dispatchFailure, Machine.stop, hstop]
          · rw [if_neg hzero, Sum.elim_inl, Sum.elim_inl, Dispatch.goesOn, Dispatch.machine,
              freshJit_resumed jit]

/-- A step that reports something ends the slice, and the dispatcher does what the
machine does with the step. -/
lemma afterExecute_reported (hclean : d.Clean) (hquiet : s.environment = {}) {left : ℕ}
    (hbudget : d.remainingInstructions = s.executed + 1 + left)
    (hreport : (s.step engine stopPc).environment.quiet = false) :
    (afterExecute handler maxServiceCalls stopPc d
        ((s.step engine stopPc).result, (s.step engine stopPc).memory)).elim
        (Dispatch.goesOn engine handler maxServiceCalls stopPc) id
      = ((d.machineAt s).step engine handler maxServiceCalls (freshResume engine)).elim
        (referenceRun engine handler maxServiceCalls stopPc (freshResume engine) left) id := by
  rcases hstep : engine.step s.jit s.memory with ⟨jit, memory, callbacks⟩
  have hmachine : engine.step (d.machineAt s).jit (d.machineAt s).memory
      = (jit, memory, callbacks) := hstep
  rw [Execution.step, hstep, hquiet] at hreport ⊢
  rw [afterExecute, Machine.step, hmachine]
  dsimp only [Execution.result] at hreport ⊢
  have hwithin : ¬s.executed + 1 > d.remainingInstructions := by omega
  simp only [hwithin, if_false, hreport, Bool.false_and]
  cases hfault : (Environment.after callbacks {}).memoryFault with
  | true => simp [dispatchFailure, Machine.stop, Dispatch.machineAt, Nat.add_assoc]
  | false =>
      simp only [Bool.false_eq_true, if_false]
      cases hsvc : (Environment.after callbacks {}).svcImmediate with
      | some immediate =>
          have hleft : left = d.remainingInstructions - (s.executed + 1) := by omega
          rw [hleft]
          refine serviceTrap_elim jit ⟨?_, ?_⟩ ?_ ?_ ?_ immediate
          · exact hclean.error
          · exact hclean.failing
          · rfl
          · rfl
          · rfl
      | none =>
          have hraised : (Environment.after callbacks {}).exceptionRaised = true := by
            simpa [Environment.quiet, hfault] using hreport
          simp [dispatchFailure, Machine.stop, Dispatch.machineAt, hraised, Nat.add_assoc]

/-- A step that reports nothing is a step of the machine. -/
lemma machineAt_step (handler : A32HostServiceHandler H M) (maxServiceCalls : ℕ)
    (d : Dispatch H M) (hquiet : s.environment = {})
    (hstep : (s.step engine stopPc).environment.quiet = true) :
    (s.step engine stopPc).environment = {}
      ∧ (d.machineAt s).step engine handler maxServiceCalls (freshResume engine)
        = .inl (d.machineAt (s.step engine stopPc)) := by
  rcases hengine : engine.step s.jit s.memory with ⟨jit, memory, callbacks⟩
  have hmachine : engine.step (d.machineAt s).jit (d.machineAt s).memory
      = (jit, memory, callbacks) := hengine
  rw [Execution.step, hengine, hquiet] at hstep ⊢
  have hafter : Environment.after callbacks {} = {} := Environment.after_eq_of_quiet hstep
  refine ⟨hafter, ?_⟩
  rw [Machine.step, hmachine]
  simp [hafter, Dispatch.machineAt, Nat.add_assoc]

/-- **The machine and a slice**: the run from the middle of a slice is the rest of the
slice and what the dispatcher does behind it. -/
lemma referenceRun_eq_afterExecute (hclean : d.Clean) {n : ℕ} (hquiet : s.environment = {})
    (hstop : s.stopPcReached = atStopPc stopPc s.jit.regs)
    (hbudget : d.remainingInstructions = s.executed + n) :
    referenceRun engine handler maxServiceCalls stopPc (freshResume engine) n (d.machineAt s)
      = (afterExecute handler maxServiceCalls stopPc d
          ((runWhile Execution.running (Execution.step engine stopPc) n s).result,
            (runWhile Execution.running (Execution.step engine stopPc) n s).memory)).elim
        (Dispatch.goesOn engine handler maxServiceCalls stopPc) id := by
  -- induction on the budget of the slice; the slice ends here, goes on or reports
  induction n generalizing s with
  | zero =>
      rw [runWhile, afterExecute_quiet hclean hquiet (by omega), Sum.elim_inr, referenceRun, hstop]
      rfl
  | succ n ih =>
      cases hreached : atStopPc stopPc s.jit.regs with
      | true =>
          have hrunning : s.running = false := by simp [Execution.running, hstop, hreached]
          rw [runWhile_of_stopped _ hrunning, afterExecute_quiet hclean hquiet (by omega),
            Sum.elim_inr, referenceRun_of_stop hreached, hstop, hreached]
          rfl
      | false =>
          have hrunning : s.running = true := by
            simp [Execution.running, hstop, hreached, hquiet, Environment.quiet]
          have hnotyet : ¬atStopPc stopPc (d.machineAt s).jit.regs = true :=
            Bool.eq_false_iff.mp hreached
          rw [runWhile_succ n hrunning, referenceRun, if_neg hnotyet]
          cases hreport : (s.step engine stopPc).environment.quiet with
          | true =>
              obtain ⟨hquiet', hmachine⟩ := machineAt_step handler maxServiceCalls d hquiet hreport
              rw [hmachine, Sum.elim_inl]
              refine ih hquiet' ?_ ?_
              · rw [Execution.step_stopPcReached, hreport, Bool.true_and]
              · rw [Execution.step_executed]
                omega
          | false =>
              have hstopped : (s.step engine stopPc).running = false := by
                simp [Execution.running, hreport]
              have hleft : d.remainingInstructions = s.executed + 1 + n := by omega
              rw [runWhile_of_stopped n hstopped,
                afterExecute_reported hclean hquiet hleft hreport]

/-! ### Rounds -/

/-- What holds between two rounds. -/
structure Dispatch.Ready (stopPc : Option UInt32) (d : Dispatch H M) : Prop where
  clean : d.Clean
  stop : d.request.stopPc = stopPc

/-- A round is what the machine does until the next one. -/
lemma goesOn_eq_dispatchRound (h : d.Ready stopPc) :
    d.goesOn engine handler maxServiceCalls stopPc
      = (dispatchRound engine handler maxServiceCalls stopPc d).elim
        (Dispatch.goesOn engine handler maxServiceCalls stopPc) id := by
  obtain ⟨hclean, rfl⟩ := h
  let request := { d.request with instructionCount := d.remainingInstructions }
  exact referenceRun_eq_afterExecute (d := { d with request })
    (s := engine.start d.memory request) (n := d.remainingInstructions)
    ⟨hclean.error, hclean.failing⟩ rfl rfl (Nat.zero_add _).symm

/-- The branch that goes on behind a SVC. -/
lemma serviceTrap_inl {immediate : UInt32} {next : Dispatch H M}
    (h : serviceTrap handler maxServiceCalls stopPc immediate d = .inl next) :
    next.remainingInstructions = d.remainingInstructions
      ∧ next.request.stopPc = stopPc ∧ (d.Clean → next.Clean) := by
  rw [serviceTrap] at h
  split at h
  · cases h
  dsimp only at h
  split at h
  · cases h
  · cases h
  · split at h
    · cases h
    split at h
    · cases h
    · cases h
      exact ⟨rfl, rfl, fun hclean => ⟨hclean.error, hclean.failing⟩⟩

/-- A round that goes on has used up an instruction. -/
lemma dispatchRound_inl {next : Dispatch H M} (h : d.Ready stopPc)
    (hround : dispatchRound engine handler maxServiceCalls stopPc d = .inl next) :
    next.Ready stopPc ∧ next.remainingInstructions < d.remainingInstructions := by
  obtain ⟨hwithin, hsvc⟩ := execute_within engine d.memory
    { d.request with instructionCount := d.remainingInstructions }
  rw [dispatchRound, afterExecute] at hround
  rcases execute engine d.memory
    { d.request with instructionCount := d.remainingInstructions } with ⟨cpuResult, memory⟩
  dsimp only at hwithin hsvc hround
  split at hround
  · cases hround
  split at hround
  · cases hround
  split at hround
  · rename_i immediate himmediate
    obtain ⟨hremaining, hstop, hclean⟩ := serviceTrap_inl hround
    rw [himmediate] at hsvc
    have hpos := hsvc rfl
    refine ⟨⟨hclean ⟨h.clean.error, h.clean.failing⟩, hstop⟩, ?_⟩
    rw [hremaining]
    dsimp only
    omega
  · split at hround
    · cases hround
    split at hround
    · cases hround
    · cases hround

/-- The loop of the dispatcher ends, and does what the machine that resumes afresh does. -/
lemma executeA32WithServices_eq_referenceRun (engine : A32Engine M) (memory : M)
    (request : ExecutionRequest) (handler : A32HostServiceHandler H M) (handlerState : H)
    (maxServiceCalls : ℕ) :
    executeA32WithServices engine memory request handler handlerState maxServiceCalls
      = some (referenceRun engine handler maxServiceCalls request.stopPc (freshResume engine)
          request.instructionCount (Machine.start engine memory request handlerState)) :=
  rounds_eq_some (Dispatch.Ready request.stopPc) Dispatch.remainingInstructions
    (fun _ hready => goesOn_eq_dispatchRound hready)
    (fun _ _ hready hround => dispatchRound_inl hready hround)
    ⟨⟨rfl, rfl⟩, rfl⟩ (Nat.lt_succ_self request.instructionCount)

end Slices

/-! ### Transparency -/

/-- An engine that does not use the extension registers and the FPSCR: they change
neither the core registers, the CPSR and the memory after a step nor its callbacks. -/
def A32Engine.IgnoresExtension (engine : A32Engine M) : Prop :=
  ∀ (jit jit' : JitState) (memory : M), jit'.regs = jit.regs → jit'.cpsr = jit.cpsr →
    (engine.step jit' memory).1.regs = (engine.step jit memory).1.regs
    ∧ (engine.step jit' memory).1.cpsr = (engine.step jit memory).1.cpsr
    ∧ (engine.step jit' memory).2 = (engine.step jit memory).2

section Transparency

variable {engine : A32Engine M} {handler : A32HostServiceHandler H M} {maxServiceCalls : ℕ}
  {stopPc : Option UInt32}

/-- Two machines that differ at most in the extension registers and the FPSCR. -/
structure Machine.Alike (m m' : Machine H M) : Prop where
  regs : m'.jit.regs = m.jit.regs
  cpsr : m'.jit.cpsr = m.jit.cpsr
  memory : m'.memory = m.memory
  handlerState : m'.handlerState = m.handlerState
  instructionsExecuted : m'.instructionsExecuted = m.instructionsExecuted
  servicesHandled : m'.servicesHandled = m.servicesHandled

variable {m m' : Machine H M} {resume resume' : JitState → JitState}

lemma Machine.Alike.stop (h : m.Alike m') (error : Option A32ServiceDispatchError)
    (failing : Option UInt32) (reached : Bool) :
    m.stop error failing reached = m'.stop error failing reached := by
  simp only [Machine.stop, h.regs, h.cpsr, h.memory, h.handlerState, h.instructionsExecuted,
    h.servicesHandled]

/-- Services do not see the difference. -/
lemma Machine.Alike.serve (h : m.Alike m') (immediate : UInt32) :
    Sum.LiftRel Machine.Alike Eq (m.serve handler maxServiceCalls resume immediate)
      (m'.serve handler maxServiceCalls resume' immediate) := by
  rw [Machine.serve, Machine.serve, h.regs, h.cpsr, h.memory, h.handlerState, h.servicesHandled]
  by_cases hlimit : m.servicesHandled ≥ maxServiceCalls
  · rw [if_pos hlimit, if_pos hlimit]
    exact .inr (h.stop _ _ _)
  · rw [if_neg hlimit, if_neg hlimit]
    have hreply : ∀ r : ServiceReply H M, (m.reply resume r).Alike (m'.reply resume' r) :=
      fun r => ⟨rfl, rfl, rfl, rfl, h.instructionsExecuted, h.servicesHandled⟩
    dsimp only
    rcases hhandle : handler.handle m.handlerState m.memory immediate m.jit.regs m.jit.cpsr with
      ⟨disposition, handlerState, memory, regs, cpsr⟩
    cases disposition with
    | unhandled => exact .inr ((hreply _).stop _ _ _)
    | failed => exact .inr ((hreply _).stop _ _ _)
    | handled =>
        refine .inl ⟨rfl, rfl, rfl, rfl, h.instructionsExecuted, ?_⟩
        exact congrArg (· + 1) h.servicesHandled

/-- Neither do steps. -/
lemma Machine.Alike.step (hengine : engine.IgnoresExtension) (h : m.Alike m') :
    Sum.LiftRel Machine.Alike Eq (m.step engine handler maxServiceCalls resume)
      (m'.step engine handler maxServiceCalls resume') := by
  obtain ⟨hregs, hcpsr, hrest⟩ := hengine m.jit m'.jit m.memory h.regs h.cpsr
  rw [Machine.step, Machine.step, h.memory]
  rcases hstep : engine.step m.jit m.memory with ⟨jit, memory, callbacks⟩
  rcases hstep' : engine.step m'.jit m.memory with ⟨jit', memory', callbacks'⟩
  rw [hstep, hstep'] at hregs hcpsr hrest
  cases hrest
  have halike : Machine.Alike
      { m with jit, memory, instructionsExecuted := m.instructionsExecuted + 1 }
      { m' with jit := jit', memory, instructionsExecuted := m'.instructionsExecuted + 1 } :=
    ⟨hregs, hcpsr, rfl, h.handlerState, congrArg (· + 1) h.instructionsExecuted,
      h.servicesHandled⟩
  dsimp only
  by_cases hfault : (Environment.after callbacks {}).memoryFault = true
  · rw [if_pos hfault, if_pos hfault]
    exact .inr (halike.stop _ _ _)
  · rw [if_neg hfault, if_neg hfault]
    cases (Environment.after callbacks {}).svcImmediate with
    | some immediate => exact halike.serve immediate
    | none =>
        dsimp only
        by_cases hraised : (Environment.after callbacks {}).exceptionRaised = true
        · rw [if_pos hraised, if_pos hraised]
          exact .inr (halike.stop _ _ _)
        · rw [if_neg hraised, if_neg hraised]
          exact .inl halike

/-- Nor do runs, whatever they resume with. -/
lemma Machine.Alike.referenceRun (hengine : engine.IgnoresExtension) (h : m.Alike m')
    (n : ℕ) :
    referenceRun engine handler maxServiceCalls stopPc resume n m
      = LibA32Android.referenceRun engine handler maxServiceCalls stopPc resume' n m' := by
  induction n generalizing m m' with
  | zero =>
      rw [LibA32Android.referenceRun, LibA32Android.referenceRun, h.regs, h.stop, h.stop]
  | succ n ih =>
      rw [LibA32Android.referenceRun, LibA32Android.referenceRun, h.regs, h.stop,
        elim_eq_of_liftRel (h.step hengine) fun _ _ halike => ih halike]

end Transparency

/-- **The dispatcher is the machine that resumes afresh**: the core registers and the CPSR
go on as the handler leaves them, the extension registers and the FPSCR start again as in
a new `Jit` after every service.  For an engine that does not use these two it is the
transparent machine. -/
theorem executeA32WithServices_reference (engine : A32Engine M) (memory : M)
    (request : ExecutionRequest) (handler : A32HostServiceHandler H M) (handlerState : H)
    (maxServiceCalls : ℕ) :
    executeA32WithServices engine memory request handler handlerState maxServiceCalls
      = some (referenceRun engine handler maxServiceCalls request.stopPc (freshResume engine)
          request.instructionCount (Machine.start engine memory request handlerState))
    ∧ (engine.IgnoresExtension →
      executeA32WithServices engine memory request handler handlerState maxServiceCalls
        = some (referenceRun engine handler maxServiceCalls request.stopPc transparentResume
            request.instructionCount (Machine.start engine memory request handlerState))) := by
  have hfresh := executeA32WithServices_eq_referenceRun engine memory request handler
    handlerState maxServiceCalls
  refine ⟨hfresh, fun hengine => hfresh.trans (congrArg some ?_)⟩
  exact Machine.Alike.referenceRun hengine ⟨rfl, rfl, rfl, rfl, rfl, rfl⟩ _

/-- The program `svc #0x42; add r0, r0, #2; ...`. -/
def addEngine : A32Engine Unit where
  step jit memory :=
    if jit.regs.pc = 0 then ({ jit with regs := jit.regs.setPc 4 }, memory, [.callSvc 0x42])
    else
      ({ jit with regs := CoreRegisters.setPc (jit.regs.set 0 (jit.regs[0] + 2)) (jit.regs.pc + 4) },
        memory, [])
  freshFpscr := 0

/-- A handler that returns 40 in r0 and counts its calls. -/
def fortyHandler : A32HostServiceHandler ℕ Unit where
  handle count memory _ regs cpsr := ⟨.handled, count + 1, memory, regs.set 0 40, cpsr⟩

lemma addEngine_ignoresExtension : addEngine.IgnoresExtension := by
  intro jit jit' memory hregs hcpsr
  simp only [addEngine, hregs]
  split
  · exact ⟨rfl, hcpsr, rfl⟩
  · exact ⟨rfl, hcpsr, rfl⟩

theorem executeA32WithServices_reference_add :
    ∃ final, executeA32WithServices addEngine () { instructionCount := 2 } fortyHandler 0 1
        = some final
      ∧ final = referenceRun addEngine fortyHandler 1 none transparentResume 2
          (Machine.start addEngine () { instructionCount := 2 } 0)
      ∧ final.result.regs[0] = 42 ∧ final.result.servicesHandled = 1 ∧ final.handlerState = 1 :=
  ⟨_, (executeA32WithServices_reference addEngine () { instructionCount := 2 } fortyHandler 0
    1).2 addEngine_ignoresExtension, rfl, by decide +kernel, by decide +kernel,
    by decide +kernel⟩

/-- The program `vmov s0, r1; svc #1; vmov r0, s0`. -/
def vmovEngine : A32Engine Unit where
  step jit memory :=
    let next := jit.regs.pc + 4
    if jit.regs.pc = 0 then
      ({ jit with regs := jit.regs.setPc next, extRegs := jit.extRegs.set 0 jit.regs[1] },
        memory, [])
    else if jit.regs.pc = 4 then
      ({ jit with regs := jit.regs.setPc next }, memory, [.callSvc 1])
    else
      ({ jit with regs := CoreRegisters.setPc (jit.regs.set 0 jit.extRegs[0]) next }, memory, [])
  freshFpscr := 0

def vmovRequest : ExecutionRequest where
  regs := (Vector.replicate 16 0).set 1 7
  instructionCount := 3

/-- A handler that changes nothing. -/
def idleHandler : A32HostServiceHandler Unit Unit where
  handle _ memory _ regs cpsr := ⟨.handled, (), memory, regs, cpsr⟩

/-- A value that is kept in an extension register over a SVC is lost. -/
theorem executeA32WithServices_not_transparent :
    let transparent := referenceRun vmovEngine idleHandler 1 none transparentResume 3
      (Machine.start vmovEngine () vmovRequest ())
    let dispatched := executeA32WithServices vmovEngine () vmovRequest idleHandler () 1
    dispatched ≠ some transparent
      ∧ dispatched.map (fun final => final.result.regs[0]) = some 0
      ∧ transparent.result.regs[0] = 7 := by
  decide +kernel

end LibA32Android

/-
The A32 execution seam (`cpu/a32_cpu.h`, `cpu/dynarmic_cpu.cpp`).

The instruction set itself is third-party code.  It enters as an `A32Engine`: a step
function on the state of the guest, with the callbacks that a step makes, and the part of
the state of a new `Jit` that `execute` does not set.

* `Environment`: what the callbacks leave for `execute`;
* `execute`: a new `Jit` from a request, stepped until the budget is used up, the stop PC
  is reached or a callback reports something.

The counters of the memory callbacks and `fastmem_enabled` are diagnostics that no caller
here reads, and are left out.
-/
import LibA32Android.Foundations.BoundedRun

namespace LibA32Android

open Foundations

/-! ### The engine -/

/-- The sixteen core registers; number 15 is the logical PC. -/
abbrev CoreRegisters := Vector UInt32 16

namespace CoreRegisters

/-- `regs[15]`. -/
def pc (regs : CoreRegisters) : UInt32 := regs[15]

/-- `regs[15] = value`. -/
def setPc (regs : CoreRegisters) (value : UInt32) : CoreRegisters := regs.set 15 value

/-- A PC written back is the PC. -/
lemma setPc_pc (regs : CoreRegisters) : regs.setPc regs.pc = regs := Vector.set_getElem_self _

end CoreRegisters

/-- The state of a `Jit` that guest code can see, apart from memory. -/
structure JitState where
  regs : CoreRegisters
  extRegs : Vector UInt32 64
  fpscr : UInt32
  cpsr : UInt32
  deriving DecidableEq

/-- The callbacks that the environment notes: a memory callback that failed, `CallSVC`,
and `ExceptionRaised` or `InterpreterFallback`. -/
inductive CpuCallback where
  | memoryFault
  | callSvc (immediate : UInt32)
  | exceptionRaised
  deriving DecidableEq, Repr

/-- The instruction set, over memories in `M`. -/
structure A32Engine (M : Type) where
  /-- `Jit::Step`. -/
  step : JitState → M → JitState × M × List CpuCallback
  /-- The FPSCR of a new `Jit`. -/
  freshFpscr : UInt32

/-- The flags of `Environment`. -/
structure Environment where
  exceptionRaised : Bool := false
  memoryFault : Bool := false
  svcImmediate : Option UInt32 := none
  deriving DecidableEq, Repr

namespace Environment

/-- The effect of a callback. -/
def callback (environment : Environment) : CpuCallback → Environment
  | .memoryFault => { environment with memoryFault := true }
  | .callSvc immediate =>
    { environment with svcImmediate := some immediate, exceptionRaised := true }
  | .exceptionRaised => { environment with exceptionRaised := true }

/-- The environment after the callbacks of a step. -/
def after (callbacks : List CpuCallback) (environment : Environment) : Environment :=
  callbacks.foldl callback environment

/-- Nothing was reported. -/
def quiet (environment : Environment) : Bool :=
  !environment.exceptionRaised && !environment.memoryFault

/-- A SVC is reported as an exception, too. -/
lemma exceptionRaised_of_svc (callbacks : List CpuCallback) {environment : Environment}
    (h : environment.svcImmediate.isSome → environment.exceptionRaised = true) :
    (environment.after callbacks).svcImmediate.isSome →
      (environment.after callbacks).exceptionRaised = true := by
  induction callbacks generalizing environment with
  | nil => exact h
  | cons callback callbacks ih =>
      refine ih ?_
      cases callback with
      | memoryFault => exact h
      | callSvc immediate => exact fun _ => rfl
      | exceptionRaised => exact fun _ => rfl

/-- An environment that reports nothing after a step is as it was at the start. -/
lemma after_eq_of_quiet {callbacks : List CpuCallback}
    (h : (after callbacks {}).quiet = true) : after callbacks {} = {} := by
  have hstart : ({} : Environment).svcImmediate.isSome →
      ({} : Environment).exceptionRaised = true := by simp
  have hsvc := exceptionRaised_of_svc callbacks hstart
  rcases hafter : after callbacks {} with ⟨exception, fault, svc⟩
  rw [hafter] at h hsvc
  simp only [quiet, Bool.and_eq_true, Bool.not_eq_true'] at h
  obtain ⟨rfl, rfl⟩ := h
  cases svc with
  | none => rfl
  | some immediate => simp at hsvc

end Environment

/-! ### Execution -/

/-- `InstructionSet`. -/
inductive InstructionSet where
  | arm
  | thumb
  deriving DecidableEq, Repr

/-- `ExecutionRequest`. -/
structure ExecutionRequest where
  instructionSet : InstructionSet := .arm
  entryPc : UInt32 := 0
  regs : CoreRegisters := Vector.replicate 16 0
  instructionCount : ℕ := 1
  stopPc : Option UInt32 := none
  initialCpsr : Option UInt32 := none
  deriving DecidableEq

/-- `ExecutionResult`, without the diagnostics. -/
structure ExecutionResult where
  regs : CoreRegisters
  cpsr : UInt32
  instructionsExecuted : ℕ
  exceptionRaised : Bool
  memoryFault : Bool
  stopPcReached : Bool
  svcImmediate : Option UInt32
  deriving DecidableEq

/-- The CPSR that a request starts with. -/
def ExecutionRequest.startCpsr (request : ExecutionRequest) : UInt32 :=
  request.initialCpsr.getD (if request.instructionSet = .thumb then 0x30 else 0x10)

/-- A stop PC is requested and reached. -/
def atStopPc (stopPc : Option UInt32) (regs : CoreRegisters) : Bool := stopPc = some regs.pc

variable {M : Type}

/-- The new `Jit` of a request. -/
def A32Engine.freshJit (engine : A32Engine M) (request : ExecutionRequest) : JitState where
  regs := request.regs.setPc request.entryPc
  extRegs := Vector.replicate 64 0
  fpscr := engine.freshFpscr
  cpsr := request.startCpsr

/-- The locals of `execute` in its loop, with the memory. -/
structure Execution (M : Type) where
  jit : JitState
  memory : M
  environment : Environment := {}
  executed : ℕ := 0
  stopPcReached : Bool

namespace Execution

/-- The condition of the loop, apart from the budget. -/
def running (s : Execution M) : Bool := !s.stopPcReached && s.environment.quiet

/-- The body of the loop. -/
def step (engine : A32Engine M) (stopPc : Option UInt32) (s : Execution M) : Execution M :=
  let (jit, memory, callbacks) := engine.step s.jit s.memory
  let environment := s.environment.after callbacks
  { jit, memory, environment
    executed := s.executed + 1
    stopPcReached := environment.quiet && atStopPc stopPc jit.regs }

lemma step_executed (engine : A32Engine M) (stopPc : Option UInt32) (s : Execution M) :
    (s.step engine stopPc).executed = s.executed + 1 := rfl

lemma step_stopPcReached (engine : A32Engine M) (stopPc : Option UInt32) (s : Execution M) :
    (s.step engine stopPc).stopPcReached
      = ((s.step engine stopPc).environment.quiet
        && atStopPc stopPc (s.step engine stopPc).jit.regs) := rfl

/-- The result at the end of the loop. -/
def result (s : Execution M) : ExecutionResult where
  regs := s.jit.regs
  cpsr := s.jit.cpsr
  instructionsExecuted := s.executed
  exceptionRaised := s.environment.exceptionRaised
  memoryFault := s.environment.memoryFault
  stopPcReached := s.stopPcReached
  svcImmediate := s.environment.svcImmediate

end Execution

/-- The start of the loop. -/
def A32Engine.start (engine : A32Engine M) (memory : M) (request : ExecutionRequest) :
    Execution M where
  jit := engine.freshJit request
  memory := memory
  stopPcReached := atStopPc request.stopPc (engine.freshJit request).regs

/-- `execute`. -/
def execute (engine : A32Engine M) (memory : M) (request : ExecutionRequest) :
    ExecutionResult × M :=
  let last := runWhile Execution.running (Execution.step engine request.stopPc)
    request.instructionCount (engine.start memory request)
  (last.result, last.memory)

/-- The invariant of the loop: the steps made and the budget left add up, and it takes a
step to report a SVC. -/
structure Execution.Within (count left : ℕ) (s : Execution M) : Prop where
  budget : s.executed + left = count
  svc : s.environment.svcImmediate.isSome → 0 < s.executed

/-- A slice stays within its budget, and a slice with a SVC has made a step. -/
lemma execute_within (engine : A32Engine M) (memory : M) (request : ExecutionRequest) :
    (execute engine memory request).1.instructionsExecuted ≤ request.instructionCount
      ∧ ((execute engine memory request).1.svcImmediate.isSome →
        0 < (execute engine memory request).1.instructionsExecuted) := by
  have hstart : Execution.Within request.instructionCount request.instructionCount
      (engine.start memory request) := ⟨Nat.zero_add _, fun h => absurd h (by simp [A32Engine.start])⟩
  have hstep : ∀ left (s : Execution M), s.running = true →
      s.Within request.instructionCount (left + 1) →
      (s.step engine request.stopPc).Within request.instructionCount left := by
    intro left s _ h
    have hbudget := h.budget
    refine ⟨?_, fun _ => ?_⟩
    · rw [Execution.step_executed]
      omega
    · rw [Execution.step_executed]
      omega
  obtain ⟨left, hlast, -⟩ := runWhile_invariant hstep hstart
  exact ⟨Nat.le.intro hlast.budget, hlast.svc⟩

end LibA32Android

/-
The host-service dispatcher (`runtime/a32_service_dispatch.h`, `.cpp`).

* `A32HostServiceHandler`: the handler of the caller, with a state of its own;
* `afterExecute`: what the dispatcher does with the result of a slice, which ends in the
  request for the next slice or in a result;
* `executeA32WithServices`: the loop.
-/
import LibA32Android.Cpu.A32Cpu

namespace LibA32Android

open Foundations

/-! ### Types -/

/-- `A32HostServiceDisposition`. -/
inductive A32HostServiceDisposition where
  | handled
  | unhandled
  | failed
  deriving DecidableEq, Repr

/-- What a handler returns and leaves in its reference parameters and in its state. -/
structure ServiceReply (H M : Type) where
  disposition : A32HostServiceDisposition
  handlerState : H
  memory : M
  regs : CoreRegisters
  cpsr : UInt32

/-- `A32HostServiceHandler`, with states in `H`. -/
structure A32HostServiceHandler (H M : Type) where
  handle : H → M → UInt32 → CoreRegisters → UInt32 → ServiceReply H M

/-- `A32ServiceDispatchError`, without `None`. -/
inductive A32ServiceDispatchError where
  | memoryFault
  | cpuException
  | serviceLimitExceeded
  | serviceUnhandled
  | serviceFailed
  | instructionLimitExceeded
  deriving DecidableEq, Repr

/-- `A32ServiceDispatchResult`; `none` is the error `None`. -/
structure A32ServiceDispatchResult where
  error : Option A32ServiceDispatchError := none
  regs : CoreRegisters
  cpsr : UInt32
  instructionsExecuted : ℕ := 0
  servicesHandled : ℕ := 0
  stopPcReached : Bool := false
  failingSvcImmediate : Option UInt32 := none
  deriving DecidableEq

/-- `failure`. -/
def dispatchFailure (result : A32ServiceDispatchResult) (error : A32ServiceDispatchError)
    (failingSvc : Option UInt32 := none) : A32ServiceDispatchResult :=
  { result with error := some error, failingSvcImmediate := failingSvc }

/-! ### The loop -/

/-- The locals of the loop, with the memory and the state of the handler. -/
structure Dispatch (H M : Type) where
  request : ExecutionRequest
  remainingInstructions : ℕ
  result : A32ServiceDispatchResult
  handlerState : H
  memory : M

/-- The values at the end of a call. -/
structure DispatchEnd (H M : Type) where
  result : A32ServiceDispatchResult
  handlerState : H
  memory : M
  deriving DecidableEq

section Loop

variable {H M : Type}

/-- The end of a slice without a trap, a fault or an exception. -/
def sliceEnd (stopPc : Option UInt32) (result : A32ServiceDispatchResult) :
    A32ServiceDispatchResult :=
  if stopPc.isSome then dispatchFailure result .instructionLimitExceeded else result

/-- The branch for a SVC; `d` is the state with the result of the slice filled in. -/
def serviceTrap (handler : A32HostServiceHandler H M) (maxServiceCalls : ℕ)
    (stopPc : Option UInt32) (immediate : UInt32) (d : Dispatch H M) :
    Dispatch H M ⊕ DispatchEnd H M :=
  if d.result.servicesHandled ≥ maxServiceCalls then
    .inr ⟨dispatchFailure d.result .serviceLimitExceeded (some immediate), d.handlerState, d.memory⟩
  else
    let reply := handler.handle d.handlerState d.memory immediate d.result.regs d.result.cpsr
    let result := { d.result with regs := reply.regs, cpsr := reply.cpsr }
    match reply.disposition with
    | .unhandled =>
      .inr ⟨dispatchFailure result .serviceUnhandled (some immediate), reply.handlerState,
        reply.memory⟩
    | .failed =>
      .inr ⟨dispatchFailure result .serviceFailed (some immediate), reply.handlerState,
        reply.memory⟩
    | .handled =>
      let result := { result with servicesHandled := result.servicesHandled + 1 }
      if atStopPc stopPc result.regs then
        .inr ⟨{ result with stopPcReached := true }, reply.handlerState, reply.memory⟩
      else if d.remainingInstructions = 0 then
        .inr ⟨sliceEnd stopPc result, reply.handlerState, reply.memory⟩
      else
        .inl { d with
          request := { d.request with
            regs := result.regs, entryPc := result.regs.pc, initialCpsr := some result.cpsr
            stopPc := stopPc }
          result := result, handlerState := reply.handlerState, memory := reply.memory }

/-- The body of the loop behind the slice. -/
def afterExecute (handler : A32HostServiceHandler H M) (maxServiceCalls : ℕ)
    (stopPc : Option UInt32) (d : Dispatch H M) (slice : ExecutionResult × M) :
    Dispatch H M ⊕ DispatchEnd H M :=
  let (cpuResult, memory) := slice
  if cpuResult.instructionsExecuted > d.remainingInstructions then
    .inr ⟨dispatchFailure d.result .cpuException, d.handlerState, memory⟩
  else
    let result := { d.result with
      instructionsExecuted := d.result.instructionsExecuted + cpuResult.instructionsExecuted
      regs := cpuResult.regs, cpsr := cpuResult.cpsr
      stopPcReached := cpuResult.stopPcReached }
    let d := { d with
      result, memory
      remainingInstructions := d.remainingInstructions - cpuResult.instructionsExecuted }
    if cpuResult.memoryFault then
      .inr ⟨dispatchFailure result .memoryFault, d.handlerState, memory⟩
    else
      match cpuResult.svcImmediate with
      | some immediate => serviceTrap handler maxServiceCalls stopPc immediate d
      | none =>
        if cpuResult.exceptionRaised then
          .inr ⟨dispatchFailure result .cpuException, d.handlerState, memory⟩
        else if cpuResult.stopPcReached then .inr ⟨result, d.handlerState, memory⟩
        else .inr ⟨sliceEnd stopPc result, d.handlerState, memory⟩

/-- The body of the loop. -/
def dispatchRound (engine : A32Engine M) (handler : A32HostServiceHandler H M)
    (maxServiceCalls : ℕ) (stopPc : Option UInt32) (d : Dispatch H M) :
    Dispatch H M ⊕ DispatchEnd H M :=
  let request := { d.request with instructionCount := d.remainingInstructions }
  afterExecute handler maxServiceCalls stopPc { d with request }
    (execute engine d.memory request)

/-- The state before the loop. -/
def dispatchStart (memory : M) (request : ExecutionRequest) (handlerState : H) :
    Dispatch H M where
  request := request
  remainingInstructions := request.instructionCount
  result := { regs := request.regs.setPc request.entryPc, cpsr := request.startCpsr }
  handlerState := handlerState
  memory := memory

/-- `execute_a32_with_services`.  A round that goes on has used up an instruction, so that
one round more than the budget is enough for the loop. -/
def executeA32WithServices (engine : A32Engine M) (memory : M) (request : ExecutionRequest)
    (handler : A32HostServiceHandler H M) (handlerState : H) (maxServiceCalls : ℕ) :
    Option (DispatchEnd H M) :=
  rounds (dispatchRound engine handler maxServiceCalls request.stopPc)
    (request.instructionCount + 1) (dispatchStart memory request handlerState)

end Loop

end LibA32Android

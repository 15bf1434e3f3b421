/-
The callbacks of the translator (`Environment` of `cpu/dynarmic_cpu.cpp`).

* `Environment.memoryReadCode`, `Environment.memoryRead8` and the others: the callbacks, each
  of them a program over the guest memory that returns its value and what it notes;
* `CallbackEngine`: an instruction set that reaches memory through the callbacks only, and
  `CallbackEngine.against`, the engine that it is when memory calls are answered in a given way;
* `A32Engine.Simulates`: engines that do the same on related memories, and
  `CallbackEngine.against_simulates`: it is enough that the memory calls are answered alike;
* `execute_simulation`: so do the calls of `execute`.

The counters of the callbacks are diagnostics, and are left out.
-/
import LibA32Android.Cpu.A32Cpu
import LibA32Android.Elf.Bytes
import LibA32Android.Memory.MemoryProgram

namespace LibA32Android

open Foundations

/-! ### The callbacks -/

namespace Environment

/-- The value of a callback, and what it notes. -/
abbrev Noted (α : Type) := α × List CpuCallback

/-- `read_bytes`. -/
def readBytes (vaddr : UInt32) (size : ℕ) : MemoryProgram (Noted (Option (List UInt8))) := do
  let bytes ← MemoryProgram.read vaddr size
  return (bytes, if bytes.isSome then [] else [.memoryFault])

/-- `write_bytes`. -/
def writeBytes (vaddr : UInt32) (bytes : List UInt8) : MemoryProgram (Noted Unit) := do
  let written ← MemoryProgram.write vaddr bytes
  return ((), if written then [] else [.memoryFault])

/-- `MemoryReadCode`. -/
def memoryReadCode (vaddr : UInt32) : MemoryProgram (Noted (Option UInt32)) := do
  let bytes ← MemoryProgram.readCode vaddr 4
  return (bytes.map (decodeU32Le · 0), if bytes.isSome then [] else [.memoryFault])

/-- A data read: the value of the bytes, or 0 when they cannot be read. -/
def memoryRead {α : Type} [OfNat α 0] (size : ℕ) (decode : List UInt8 → α) (vaddr : UInt32) :
    MemoryProgram (Noted α) := do
  let answer ← readBytes vaddr size
  return (answer.1.elim 0 decode, answer.2)

/-- The loop of `MemoryRead64` over its eight bytes. -/
def decodeU64 (bytes : List UInt8) : UInt64 :=
  (List.range 8).foldl
    (fun value index => value ||| (bytes.getD index 0).toUInt64 <<< UInt64.ofNat (index * 8)) 0

/-- The bytes of `MemoryWrite16`. -/
def encodeU16 (value : UInt16) : List UInt8 := [value.toUInt8, (value >>> 8).toUInt8]

/-- The loop of `MemoryWrite64`. -/
def encodeU64 (value : UInt64) : List UInt8 :=
  (List.range 8).map fun index => (value >>> UInt64.ofNat (index * 8)).toUInt8

/-- `MemoryRead8`. -/
def memoryRead8 : UInt32 → MemoryProgram (Noted UInt8) := memoryRead 1 fun bytes => bytes.getD 0 0

/-- `MemoryRead16`. -/
def memoryRead16 : UInt32 → MemoryProgram (Noted UInt16) := memoryRead 2 (decodeU16Le · 0)

/-- `MemoryRead32`. -/
def memoryRead32 : UInt32 → MemoryProgram (Noted UInt32) := memoryRead 4 (decodeU32Le · 0)

/-- `MemoryRead64`. -/
def memoryRead64 : UInt32 → MemoryProgram (Noted UInt64) := memoryRead 8 decodeU64

/-- `MemoryWrite8`. -/
def memoryWrite8 (vaddr : UInt32) (value : UInt8) : MemoryProgram (Noted Unit) :=
  writeBytes vaddr [value]

/-- `MemoryWrite16`. -/
def memoryWrite16 (vaddr : UInt32) (value : UInt16) : MemoryProgram (Noted Unit) :=
  writeBytes vaddr (encodeU16 value)

/-- `MemoryWrite32`. -/
def memoryWrite32 (vaddr value : UInt32) : MemoryProgram (Noted Unit) :=
  writeBytes vaddr (encodeU32Le value)

/-- `MemoryWrite64`. -/
def memoryWrite64 (vaddr : UInt32) (value : UInt64) : MemoryProgram (Noted Unit) :=
  writeBytes vaddr (encodeU64 value)

end Environment

/-- A call of `Dynarmic::A32::UserCallbacks` that `Environment` overrides. -/
inductive CpuCall where
  | memoryReadCode (vaddr : UInt32)
  | memoryRead8 (vaddr : UInt32)
  | memoryRead16 (vaddr : UInt32)
  | memoryRead32 (vaddr : UInt32)
  | memoryRead64 (vaddr : UInt32)
  | memoryWrite8 (vaddr : UInt32) (value : UInt8)
  | memoryWrite16 (vaddr : UInt32) (value : UInt16)
  | memoryWrite32 (vaddr : UInt32) (value : UInt32)
  | memoryWrite64 (vaddr : UInt32) (value : UInt64)
  | interpreterFallback
  | callSvc (immediate : UInt32)
  | exceptionRaised
  | addTicks (ticks : UInt64)
  | getTicksRemaining

namespace CpuCall

/-- What a call returns. -/
def Answer : CpuCall → Type
  | .memoryReadCode _ => Option UInt32
  | .memoryRead8 _ => UInt8
  | .memoryRead16 _ => UInt16
  | .memoryRead32 _ => UInt32
  | .memoryRead64 _ => UInt64
  | .getTicksRemaining => UInt64
  | _ => Unit

/-- The override. -/
def callback : (call : CpuCall) → MemoryProgram (Environment.Noted call.Answer)
  | .memoryReadCode vaddr => Environment.memoryReadCode vaddr
  | .memoryRead8 vaddr => Environment.memoryRead8 vaddr
  | .memoryRead16 vaddr => Environment.memoryRead16 vaddr
  | .memoryRead32 vaddr => Environment.memoryRead32 vaddr
  | .memoryRead64 vaddr => Environment.memoryRead64 vaddr
  | .memoryWrite8 vaddr value => Environment.memoryWrite8 vaddr value
  | .memoryWrite16 vaddr value => Environment.memoryWrite16 vaddr value
  | .memoryWrite32 vaddr value => Environment.memoryWrite32 vaddr value
  | .memoryWrite64 vaddr value => Environment.memoryWrite64 vaddr value
  | .interpreterFallback => return ((), [.exceptionRaised])
  | .callSvc immediate => return ((), [.callSvc immediate])
  | .exceptionRaised => return ((), [.exceptionRaised])
  | .addTicks _ => return ((), [])
  | .getTicksRemaining => return ((1 : UInt64), [])

end CpuCall

/-! ### The spans of the callbacks -/

namespace Environment

lemma readBytes_spans (vaddr : UInt32) {size : ℕ} (h : 0 < size) :
    MemoryProgram.SpansNonempty (readBytes vaddr size) :=
  .bind (.call (MemoryCall.read vaddr size) _ h fun _ => .done _) fun _ => .done _

lemma memoryRead_spans {α : Type} [OfNat α 0] {size : ℕ} (h : 0 < size)
    (decode : List UInt8 → α) (vaddr : UInt32) :
    MemoryProgram.SpansNonempty (memoryRead size decode vaddr) :=
  .bind (readBytes_spans vaddr h) fun _ => .done _

lemma writeBytes_spans (vaddr : UInt32) {bytes : List UInt8} (h : 0 < bytes.length) :
    MemoryProgram.SpansNonempty (writeBytes vaddr bytes) :=
  .bind (.call (MemoryCall.write vaddr bytes) _ h fun _ => .done _) fun _ => .done _

end Environment

/-- No callback has an empty span. -/
lemma CpuCall.callback_spans (call : CpuCall) : MemoryProgram.SpansNonempty call.callback := by
  cases call with
  | memoryReadCode vaddr =>
      exact .bind (.call (MemoryCall.readCode vaddr 4) _ (Nat.succ_pos 3) fun _ => .done _)
        fun _ => .done _
  | memoryRead8 vaddr => exact Environment.memoryRead_spans Nat.one_pos _ vaddr
  | memoryRead16 vaddr => exact Environment.memoryRead_spans Nat.two_pos _ vaddr
  | memoryRead32 vaddr => exact Environment.memoryRead_spans (Nat.succ_pos 3) _ vaddr
  | memoryRead64 vaddr => exact Environment.memoryRead_spans (Nat.succ_pos 7) _ vaddr
  | memoryWrite8 vaddr value => exact Environment.writeBytes_spans vaddr (Nat.succ_pos 0)
  | memoryWrite16 vaddr value => exact Environment.writeBytes_spans vaddr (Nat.succ_pos 1)
  | memoryWrite32 vaddr value => exact Environment.writeBytes_spans vaddr (Nat.succ_pos 3)
  | memoryWrite64 vaddr value => exact Environment.writeBytes_spans vaddr (Nat.succ_pos 7)
  | interpreterFallback => exact .done _
  | callSvc immediate => exact .done _
  | exceptionRaised => exact .done _
  | addTicks ticks => exact .done _
  | getTicksRemaining => exact .done _

/-! ### Engines behind the callbacks -/

variable {M M' : Type}

/-- An instruction set that reaches memory through the callbacks only. -/
structure CallbackEngine where
  /-- `Jit::Step`. -/
  step : JitState → Interaction CpuCall CpuCall.Answer JitState
  /-- The FPSCR of a new `Jit`. -/
  freshFpscr : UInt32

/-- How a callback is answered, beside what was noted before. -/
def CpuCall.respond (answer : (call : MemoryCall) → M → call.Answer × M) (call : CpuCall)
    (s : M × List CpuCallback) : call.Answer × M × List CpuCallback :=
  let served := call.callback.run answer s.1
  (served.1.1, served.2, s.2 ++ served.1.2)

/-- The engine over memories that answer in a given way. -/
def CallbackEngine.against (engine : CallbackEngine)
    (answer : (call : MemoryCall) → M → call.Answer × M) : A32Engine M where
  step jit memory := (engine.step jit).run (CpuCall.respond answer) (memory, [])
  freshFpscr := engine.freshFpscr

/-- The engine over a guest memory. -/
def CallbackEngine.on (engine : CallbackEngine) (M : Type) [GuestMemory M] : A32Engine M :=
  engine.against MemoryCall.respond

/-- The engines do the same on related memories, and leave related memories. -/
structure A32Engine.Simulates (engine : A32Engine M) (engine' : A32Engine M')
    (r : M → M' → Prop) : Prop where
  fresh : engine.freshFpscr = engine'.freshFpscr
  jit : ∀ jit memory memory', r memory memory' →
    (engine.step jit memory).1 = (engine'.step jit memory').1
  memory : ∀ jit memory memory', r memory memory' →
    r (engine.step jit memory).2.1 (engine'.step jit memory').2.1
  callbacks : ∀ jit memory memory', r memory memory' →
    (engine.step jit memory).2.2 = (engine'.step jit memory').2.2

/-- **Engines over memories that answer alike do the same.** -/
lemma CallbackEngine.against_simulates {answer : (call : MemoryCall) → M → call.Answer × M}
    {answer' : (call : MemoryCall) → M' → call.Answer × M'} {r : M → M' → Prop}
    (hcall : ∀ call memory memory', 0 < call.length → r memory memory' →
      (answer call memory).1 = (answer' call memory').1
        ∧ r (answer call memory).2 (answer' call memory').2)
    (engine : CallbackEngine) : (engine.against answer).Simulates (engine.against answer') r := by
  -- one callback, with the list of what was noted
  have hrespond : ∀ (call : CpuCall) (s : M × List CpuCallback) (s' : M' × List CpuCallback),
      True → r s.1 s'.1 ∧ s.2 = s'.2 →
      (call.respond answer s).1 = (call.respond answer' s').1
        ∧ r (call.respond answer s).2.1 (call.respond answer' s').2.1
        ∧ (call.respond answer s).2.2 = (call.respond answer' s').2.2 := by
    intro call s s' _ h
    obtain ⟨hvalue, hmemory⟩ := Interaction.run_simulation hcall call.callback_spans h.1
    rw [CpuCall.respond, CpuCall.respond, hvalue, h.2]
    exact ⟨rfl, hmemory, rfl⟩
  have hstep : ∀ jit memory memory', r memory memory' →
      ((engine.against answer).step jit memory).1 = ((engine.against answer').step jit memory').1
        ∧ r ((engine.against answer).step jit memory).2.1
          ((engine.against answer').step jit memory').2.1
        ∧ ((engine.against answer).step jit memory).2.2
          = ((engine.against answer').step jit memory').2.2 := fun jit memory memory' h =>
    Interaction.run_simulation hrespond (.of_true (engine.step jit)) ⟨h, rfl⟩
  exact ⟨rfl, fun jit memory memory' h => (hstep jit memory memory' h).1,
    fun jit memory memory' h => (hstep jit memory memory' h).2.1,
    fun jit memory memory' h => (hstep jit memory memory' h).2.2⟩

/-! ### Calls of `execute` -/

/-- The locals of two runs of `execute`, in step. -/
structure Execution.Related (r : M → M' → Prop) (s : Execution M) (s' : Execution M') : Prop where
  jit : s.jit = s'.jit
  memory : r s.memory s'.memory
  environment : s.environment = s'.environment
  executed : s.executed = s'.executed
  stopPcReached : s.stopPcReached = s'.stopPcReached

section Execute

variable {engine : A32Engine M} {engine' : A32Engine M'} {r : M → M' → Prop} {memory : M}
  {memory' : M'}

lemma Execution.Related.step {s : Execution M} {s' : Execution M'} (h : s.Related r s')
    (hsim : engine.Simulates engine' r) (stopPc : Option UInt32) :
    (s.step engine stopPc).Related r (s'.step engine' stopPc) := by
  have hjit := hsim.jit s.jit s.memory s'.memory h.memory
  have hcallbacks := hsim.callbacks s.jit s.memory s'.memory h.memory
  have hmemory := hsim.memory s.jit s.memory s'.memory h.memory
  rw [h.jit] at hjit hcallbacks hmemory
  simp only [Execution.step, h.jit, hjit, hcallbacks, h.environment, h.executed]
  exact ⟨rfl, hmemory, rfl, rfl, rfl⟩

/-- **Engines that do the same give the same results.** -/
lemma execute_simulation (hsim : engine.Simulates engine' r) (h : r memory memory')
    (request : ExecutionRequest) :
    (execute engine memory request).1 = (execute engine' memory' request).1
      ∧ r (execute engine memory request).2 (execute engine' memory' request).2 := by
  have hfresh : engine.freshJit request = engine'.freshJit request := by
    rw [A32Engine.freshJit, A32Engine.freshJit, hsim.fresh]
  have hstart : (engine.start memory request).Related r (engine'.start memory' request) := by
    rw [A32Engine.start, A32Engine.start, hfresh]
    exact ⟨rfl, h, rfl, rfl, rfl⟩
  have hgo : ∀ (s : Execution M) (s' : Execution M'), s.Related r s' →
      s.running = s'.running := by
    intro s s' hs
    rw [Execution.running, Execution.running, hs.stopPcReached, hs.environment]
  have hlast := runWhile_simulation hgo
    (fun s s' hs => hs.step hsim request.stopPc) request.instructionCount hstart
  refine ⟨?_, hlast.memory⟩
  rw [execute, execute, Execution.result, Execution.result, hlast.jit, hlast.executed,
    hlast.environment, hlast.stopPcReached]

end Execute

end LibA32Android

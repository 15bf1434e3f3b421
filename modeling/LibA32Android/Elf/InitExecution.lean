/-
The execution of constructor plans (`execute_elf32_init_calls` of
`elf/linking/elf32_lifecycle.cpp`).

* `Elf32InitCall.request`, `Elf32InitCall.refused`: what the CPU is asked to run for a call,
  and the function addresses that it is not asked to run;
* `executeElf32InitCalls`: the loop over a plan;
* `Constructed`: constructors that ran and returned, one after the other, with the memory
  that they left, and `Constructed.append`;
* `executeElf32InitCalls_exact`: the calls before the failing one have returned, the failing
  one is named with its cause, and those after it never start;
* `planned_constructors`: what a plan of `plan_elf32_init_array_calls` guarantees for its
  execution: when a constructor of an object fails, those of its dependencies have returned.
-/
import LibA32Android.Cpu.A32Cpu
import LibA32Android.Elf.InitOrder

namespace LibA32Android

open Foundations QueryProgram

/-! ### The loop -/

/-- `Elf32InitExecutionOptions`. -/
structure Elf32InitExecutionOptions where
  stackTop : UInt32 := 0
  returnPc : UInt32 := 0
  maxInstructionsPerCall : ℕ := 0
  deriving DecidableEq, Repr

/-- `Elf32InitExecutionError`, without `None`. -/
inductive Elf32InitExecutionError where
  | invalidOptions
  | invalidFunctionAddress
  | cpuException
  | memoryFault
  | instructionLimitExceeded
  deriving DecidableEq, Repr

/-- `Elf32InitExecutionResult`; `none` is the error `None`. -/
structure Elf32InitExecutionResult where
  error : Option Elf32InitExecutionError := none
  callsCompleted : ℕ := 0
  failingCall : Option ℕ := none
  failingObject : Option ℕ := none
  cpuResult : Option ExecutionResult := none
  deriving DecidableEq

/-- `execution_failure`. -/
def executionFailure (error : Elf32InitExecutionError) (callsCompleted failingCall : ℕ)
    (failingObject : ℕ) (cpuResult : Option ExecutionResult := none) :
    Elf32InitExecutionResult where
  error := some error
  callsCompleted := callsCompleted
  failingCall := some failingCall
  failingObject := some failingObject
  cpuResult := cpuResult

/-- The checks of the options. -/
def Elf32InitExecutionOptions.invalid (options : Elf32InitExecutionOptions) : Bool :=
  options.stackTop = 0 || options.stackTop &&& 7 ≠ 0 || options.returnPc &&& 3 ≠ 0
    || options.maxInstructionsPerCall = 0

namespace CoreRegisters

lemma sp_index : 13 < 16 := by decide

lemma lr_index : 14 < 16 := by decide

/-- `regs[14]`. -/
def lr (regs : CoreRegisters) : UInt32 := regs.get ⟨14, lr_index⟩

/-- Registers that are zero but for `regs[13]` and `regs[14]`. -/
def ofStackAndLink (sp lr : UInt32) : CoreRegisters :=
  ((Vector.replicate 16 0).set 13 sp sp_index).set 14 lr lr_index

end CoreRegisters

namespace Elf32InitCall

/-- `thumb`. -/
def thumb (call : Elf32InitCall) : Bool := call.function &&& 1 ≠ 0

/-- `entry_pc`. -/
def entryPc (call : Elf32InitCall) : UInt32 := call.function &&& ~~~1

/-- The checks of the function address. -/
def refused (call : Elf32InitCall) (options : Elf32InitExecutionOptions) : Bool :=
  call.function = 0 || call.function = 0xffffffff || call.entryPc = options.returnPc
    || (!call.thumb && call.entryPc &&& 3 ≠ 0)

/-- The request of a call. -/
def request (call : Elf32InitCall) (options : Elf32InitExecutionOptions) : ExecutionRequest where
  instructionSet := if call.thumb then .thumb else .arm
  entryPc := call.entryPc
  regs := CoreRegisters.ofStackAndLink options.stackTop
    (options.returnPc ||| if call.thumb then 1 else 0)
  instructionCount := options.maxInstructionsPerCall
  stopPc := some options.returnPc

end Elf32InitCall

/-- The checks of the result of a call.  A fault can be an exception, too, and goes first. -/
def initCallError (cpuResult : ExecutionResult) : Option Elf32InitExecutionError :=
  if cpuResult.memoryFault then some .memoryFault
  else if cpuResult.exceptionRaised then some .cpuException
  else if !cpuResult.stopPcReached then some .instructionLimitExceeded
  else none

section Loop

variable {M : Type} (engine : A32Engine M) (options : Elf32InitExecutionOptions)

/-- The loop, from call number `index` on. -/
def executeInitCallsFrom :
    List Elf32InitCall → ℕ → ℕ → M → Elf32InitExecutionResult × M
  | [], _, completed, memory => ({ callsCompleted := completed }, memory)
  | call :: calls, index, completed, memory =>
    if call.refused options then
      (executionFailure .invalidFunctionAddress completed index call.objectIndex, memory)
    else
      let (cpuResult, memory) := execute engine memory (call.request options)
      match initCallError cpuResult with
      | some error =>
        (executionFailure error completed index call.objectIndex (some cpuResult), memory)
      | none => executeInitCallsFrom calls (index + 1) (completed + 1) memory

/-- `execute_elf32_init_calls`. -/
def executeElf32InitCalls (memory : M) (calls : List Elf32InitCall) :
    Elf32InitExecutionResult × M :=
  if options.invalid then ({ error := some .invalidOptions }, memory)
  else executeInitCallsFrom engine options calls 0 0 memory

end Loop

/-! ### Constructors that return -/

/-- The constructor of a call runs and returns: the CPU takes at least one instruction and no
more than allowed, reports nothing, and stops at the return address. -/
structure Elf32InitCall.Returns {M : Type} (call : Elf32InitCall) (engine : A32Engine M)
    (options : Elf32InitExecutionOptions) (memory memory' : M) : Prop where
  accepted : call.refused options = false
  memoryFault : (execute engine memory (call.request options)).1.memoryFault = false
  exceptionRaised : (execute engine memory (call.request options)).1.exceptionRaised = false
  returned : (execute engine memory (call.request options)).1.regs.pc = options.returnPc
  started : 0 < (execute engine memory (call.request options)).1.instructionsExecuted
  within : (execute engine memory (call.request options)).1.instructionsExecuted
    ≤ options.maxInstructionsPerCall
  left : memory' = (execute engine memory (call.request options)).2

/-- The constructors of some calls run and return, one after the other. -/
inductive Constructed {M : Type} (engine : A32Engine M) (options : Elf32InitExecutionOptions) :
    M → List Elf32InitCall → M → Prop
  | nil (memory : M) : Constructed engine options memory [] memory
  | cons {call : Elf32InitCall} {calls : List Elf32InitCall} {memory next memory' : M}
      (hcall : call.Returns engine options memory next)
      (hcalls : Constructed engine options next calls memory') :
      Constructed engine options memory (call :: calls) memory'

section Execution

variable {M : Type} {engine : A32Engine M} {options : Elf32InitExecutionOptions}
  {memory memory' : M} {call : Elf32InitCall} {calls calls' : List Elf32InitCall}

/-- The invariant of the loop of `execute` for its stop PC: what is reported about it is true
and quiet. -/
structure Execution.AtStop (request : ExecutionRequest) (s : Execution M) : Prop where
  reported : s.stopPcReached = (s.environment.quiet && atStopPc request.stopPc s.jit.regs)
  waiting : s.executed = 0 → s.jit.regs.pc = request.entryPc

/-- What a slice reports about its stop PC. -/
lemma execute_atStop (engine : A32Engine M) (memory : M) (request : ExecutionRequest) :
    ((execute engine memory request).1.stopPcReached = true
        ↔ (execute engine memory request).1.exceptionRaised = false
          ∧ (execute engine memory request).1.memoryFault = false
          ∧ request.stopPc = some (execute engine memory request).1.regs.pc)
      ∧ ((execute engine memory request).1.instructionsExecuted = 0 →
        (execute engine memory request).1.regs.pc = request.entryPc) := by
  have hpc : (engine.freshJit request).regs.pc = request.entryPc :=
    Vector.getElem_set_self (by decide)
  have hstart : (engine.start memory request).AtStop request := ⟨rfl, fun _ => hpc⟩
  have hstep : ∀ (_ : ℕ) (s : Execution M), s.running = true → s.AtStop request →
      (s.step engine request.stopPc).AtStop request := fun _ s _ _ =>
    ⟨s.step_stopPcReached engine request.stopPc, fun hzero => absurd hzero (Nat.succ_ne_zero _)⟩
  obtain ⟨-, hlast, -⟩ := runWhile_invariant (P := fun _ s => Execution.AtStop request s)
    (n := request.instructionCount) hstep hstart
  refine ⟨?_, hlast.waiting⟩
  change Execution.stopPcReached _ = true ↔ _
  rw [hlast.reported, Bool.and_eq_true, Environment.quiet, Bool.and_eq_true, Bool.not_eq_true',
    Bool.not_eq_true', and_assoc, atStopPc, decide_eq_true_eq]
  rfl

/-- An accepted call returns exactly when it ends without an error. -/
lemma Elf32InitCall.returns_iff (haccepted : call.refused options = false) :
    call.Returns engine options memory memory'
      ↔ initCallError (execute engine memory (call.request options)).1 = none
        ∧ memory' = (execute engine memory (call.request options)).2 := by
  obtain ⟨hstop, hwaiting⟩ := execute_atStop engine memory (call.request options)
  have hbudget := (execute_within engine memory (call.request options)).1
  have hentry : call.entryPc ≠ options.returnPc := by
    rw [refused] at haccepted
    simp only [Bool.or_eq_false_iff, decide_eq_false_iff_not] at haccepted
    exact haccepted.1.2
  constructor
  · intro h
    refine ⟨?_, h.left⟩
    have hreached := hstop.mpr ⟨h.exceptionRaised, h.memoryFault, congrArg some h.returned.symm⟩
    simp [initCallError, h.memoryFault, h.exceptionRaised, hreached]
  · rintro ⟨herror, hleft⟩
    have hreached : (execute engine memory (call.request options)).1.stopPcReached = true := by
      by_contra hnot
      rw [initCallError] at herror
      split at herror
      · cases herror
      split at herror
      · cases herror
      · simp [hnot] at herror
    obtain ⟨hexception, hfault, hpc⟩ := hstop.mp hreached
    have hpc : options.returnPc = _ := Option.some.inj hpc
    refine ⟨haccepted, hfault, hexception, hpc.symm, Nat.pos_of_ne_zero fun hzero => ?_, hbudget,
      hleft⟩
    exact hentry ((hwaiting hzero).symm.trans hpc.symm)

/-- Constructors after constructors. -/
lemma Constructed.append {next : M} (h : Constructed engine options memory calls next)
    (h' : Constructed engine options next calls' memory') :
    Constructed engine options memory (calls ++ calls') memory' := by
  induction h with
  | nil _ => exact h'
  | cons hcall _ ih => exact .cons hcall (ih h')

end Execution

/-! ### What a call reports -/

/-- How the execution of a plan can end: every constructor has returned; or those before
some call have, and that call is refused, or runs and ends with an error. -/
inductive InitOutcome {M : Type} (engine : A32Engine M) (options : Elf32InitExecutionOptions)
    (memory : M) (calls : List Elf32InitCall) : Elf32InitExecutionResult × M → Prop
  | completed {memory' : M} (h : Constructed engine options memory calls memory') :
      InitOutcome engine options memory calls ({ callsCompleted := calls.length }, memory')
  | refused {before after : List Elf32InitCall} {call : Elf32InitCall} {next : M}
      (hcalls : calls = before ++ call :: after)
      (hbefore : Constructed engine options memory before next)
      (hrefused : call.refused options = true) :
      InitOutcome engine options memory calls
        (executionFailure .invalidFunctionAddress before.length before.length call.objectIndex,
          next)
  | failed {before after : List Elf32InitCall} {call : Elf32InitCall} {next : M}
      {error : Elf32InitExecutionError} (hcalls : calls = before ++ call :: after)
      (hbefore : Constructed engine options memory before next)
      (haccepted : call.refused options = false)
      (herror : initCallError (execute engine next (call.request options)).1 = some error) :
      InitOutcome engine options memory calls
        (executionFailure error before.length before.length call.objectIndex
          (some (execute engine next (call.request options)).1),
          (execute engine next (call.request options)).2)

/-- The CPU is not asked to run an invalid address. -/
lemma initCallError_ne (cpuResult : ExecutionResult) :
    initCallError cpuResult ≠ some .invalidFunctionAddress := by
  rw [initCallError]
  split
  · simp
  · split
    · simp
    · split <;> simp

/-- The calls before a call. -/
lemma take_before {calls before after : List Elf32InitCall} {call : Elf32InitCall}
    (h : calls = before ++ call :: after) : calls.take before.length = before := by
  rw [h, List.take_left]

/-- The call after them. -/
lemma call_at {calls before after : List Elf32InitCall} {call : Elf32InitCall}
    (h : calls = before ++ call :: after) : calls[before.length]? = some call := by
  rw [h, List.getElem?_append_right le_rfl, Nat.sub_self, List.getElem?_cons_zero]

section Outcome

variable {M : Type} {engine : A32Engine M} {options : Elf32InitExecutionOptions}

/-- The loop after some calls that have returned. -/
lemma executeInitCallsFrom_outcome {start memory : M} (before : List Elf32InitCall)
    (hbefore : Constructed engine options start before memory) (calls : List Elf32InitCall) :
    InitOutcome engine options start (before ++ calls)
      (executeInitCallsFrom engine options calls before.length before.length memory) := by
  induction calls generalizing before memory with
  | nil =>
      rw [executeInitCallsFrom, List.append_nil]
      exact .completed hbefore
  | cons call calls ih =>
      rw [executeInitCallsFrom]
      cases hrefused : call.refused options with
      | true =>
          rw [if_pos rfl]
          exact .refused rfl hbefore hrefused
      | false =>
          rw [if_neg Bool.false_ne_true]
          dsimp only
          cases herror : initCallError (execute engine memory (call.request options)).1 with
          | some error => exact .failed rfl hbefore hrefused herror
          | none =>
              have hcall := (Elf32InitCall.returns_iff hrefused).mpr ⟨herror, rfl⟩
              have hnext := ih (before ++ [call]) (hbefore.append (.cons hcall (.nil _)))
              rw [List.length_append, List.append_assoc] at hnext
              exact hnext

/-- **The executor reports what happened.**  With valid options, the constructors before the
failing call have all returned to the return address, in order, each within its budget; the
failing call is named by its position and its object, with the result of the CPU if it ran;
no later constructor starts; and without a failing call all constructors have returned. -/
theorem executeElf32InitCalls_exact (engine : A32Engine M)
    {options : Elf32InitExecutionOptions} (hoptions : options.invalid = false) (memory : M)
    (calls : List Elf32InitCall) :
    InitOutcome engine options memory calls
      (executeElf32InitCalls engine options memory calls) := by
  rw [executeElf32InitCalls, hoptions, if_neg Bool.false_ne_true]
  exact executeInitCallsFrom_outcome [] (.nil memory) calls

end Outcome

/-- Functions that return at once, but for an undefined instruction at `0x4000`. -/
def returningEngine : A32Engine LinearGuestMemory where
  step jit memory :=
    ({ jit with regs := jit.regs.setPc (jit.regs.lr &&& ~~~1) }, memory,
      if jit.regs.pc = 0x4000 then [.exceptionRaised] else [])
  freshFpscr := 0

def returningOptions : Elf32InitExecutionOptions where
  stackTop := 0x8000
  returnPc := 0x5000
  maxInstructionsPerCall := 4

/-- The second of three constructors ends with an exception. -/
theorem executeElf32InitCalls_exact_exception :
    let calls : List Elf32InitCall := [⟨3, 0, 0x3001⟩, ⟨0, 0, 0x4000⟩, ⟨2, 0, 0x2000⟩]
    let after := executeElf32InitCalls returningEngine returningOptions constructorMemory calls
    after.1.error = some .cpuException ∧ after.1.callsCompleted = 1 ∧ after.1.failingObject = some 0
      ∧ InitOutcome returningEngine returningOptions constructorMemory calls after := by
  intro calls after
  have hoptions : returningOptions.invalid = false := by decide
  exact ⟨by decide +kernel, by decide +kernel, by decide +kernel,
    executeElf32InitCalls_exact returningEngine hoptions constructorMemory calls⟩

/-! ### Plans -/

section Plans

variable {graph : Elf32DependencyGraph} {o : UInt32 × ℕ → Option (List UInt8)}

/-- A planned call has the index of its object and is not a sentinel. -/
lemma mem_initCalls {objectIndex : ℕ} {call : Elf32InitCall}
    (h : call ∈ graph.initCalls o objectIndex) :
    call.objectIndex = objectIndex ∧ call.function ≠ 0 ∧ call.function ≠ 0xffffffff := by
  obtain ⟨index, hindex, rfl⟩ := List.mem_map.mp h
  exact ⟨rfl, of_decide_eq_true (List.mem_filter.mp hindex).2⟩

/-- The calls of the objects before that of some call come before it. -/
lemma initCalls_before {order order' : List ℕ} {u : ℕ} (hu : u ∉ order)
    {before after : List Elf32InitCall} {call : Elf32InitCall} (hcall : call.objectIndex = u)
    (h : (order ++ u :: order').flatMap (graph.initCalls o) = before ++ call :: after) :
    order.flatMap (graph.initCalls o) <+: before := by
  rw [List.flatMap_append] at h
  refine List.prefix_of_prefix_length_le ⟨_, h⟩ (List.prefix_append _ _) ?_
  by_contra hlt
  -- otherwise the call would be one of an earlier object
  have hmem : call ∈ order.flatMap (graph.initCalls o) := by
    have hget := call_at h
    rw [ List.getElem?_append_left (Nat.lt_of_not_le hlt)] at hget
    exact List.mem_of_getElem? hget
  obtain ⟨objectIndex, hobject, hmem⟩ := List.mem_flatMap.mp hmem
  rw [(mem_initCalls hmem).1] at hcall
  exact hu (hcall ▸ hobject)

/-- When a planned call fails, the calls of the dependencies of its object come before it,
but for those that depend on the object in turn. -/
lemma planned_dependencies {rootObject : ℕ} {planOptions : Elf32InitPlanOptions}
    {calls before after : List Elf32InitCall} {call : Elf32InitCall}
    (hplan : (planElf32InitArrayCalls graph rootObject planOptions).under o = .ok calls)
    (hcalls : calls = before ++ call :: after) :
    Reaches (dependencyTargets graph) rootObject call.objectIndex
      ∧ (call.function ≠ 0 ∧ call.function ≠ 0xffffffff)
      ∧ ∀ v ∈ dependencyTargets graph call.objectIndex,
        ¬Reaches (dependencyTargets graph) v call.objectIndex →
          ∀ earlier ∈ graph.initCalls o v, earlier ∈ before := by
  obtain ⟨pre, post, hwalk, horder, -⟩ := planInitArrayCallsWith_ok exactSub_sub hplan
  have hnodup : post.Nodup := hwalk.perm.nodup_iff.mp hwalk.nodup
  have hmem : call ∈ post.flatMap (graph.initCalls o) := by
    rw [← horder, hcalls]
    exact List.mem_append_right _ List.mem_cons_self
  obtain ⟨u, hu, hinit⟩ := List.mem_flatMap.mp hmem
  obtain ⟨hindex, hsentinel⟩ := mem_initCalls hinit
  refine ⟨hindex ▸ hwalk.mem_iff.mp (hwalk.mem_post.mp hu), hsentinel, ?_⟩
  intro v hv hback earlier hearlier
  rw [hindex] at hv hback
  obtain ⟨order, order', hpost⟩ := List.append_of_mem hu
  have hbefore : v ∈ order := by
    rcases hwalk.finished_before hpost hv with hseen | hbefore | hreach
    · exact absurd hseen (Set.notMem_empty v)
    · exact hbefore
    · exact absurd hreach hback
  have hnotMem : u ∉ order := by
    rw [hpost] at hnodup
    exact fun hin => (List.nodup_append.mp hnodup).2.2 u hin u List.mem_cons_self rfl
  have hinitial := initCalls_before hnotMem hindex (by rw [← hpost, ← horder, hcalls])
  exact hinitial.subset (List.mem_flatMap.mpr ⟨v, hbefore, hearlier⟩)

end Plans

/-- **Planned constructors run after those they rest on.**  Execute the plan of a root with
valid options.  Without an error every constructor of the plan has returned.  Otherwise the
calls that are reported as completed have returned; the object that is reported as failing is
reachable from the root; the constructors of each of its dependencies have returned, unless
the dependency depends on it in turn; and when a function address is refused, that of the
call reported as failing is the return address or that of a misaligned ARM function, since
a plan has no sentinels. -/
theorem planned_constructors {M : Type} [GuestMemory M] (engine : A32Engine M) (memory : M)
    {graph : Elf32DependencyGraph} {rootObject : ℕ} {planOptions : Elf32InitPlanOptions}
    {calls : List Elf32InitCall}
    (hplan : (planElf32InitArrayCalls graph rootObject planOptions).under
      (GuestMemory.reads memory) = .ok calls)
    {options : Elf32InitExecutionOptions} (hoptions : options.invalid = false) :
    ∀ result memory', executeElf32InitCalls engine options memory calls = (result, memory') →
      (result.error = none → Constructed engine options memory calls memory')
        ∧ (∃ next, Constructed engine options memory (calls.take result.callsCompleted) next)
        ∧ (∀ u, result.failingObject = some u →
          Reaches (dependencyTargets graph) rootObject u
            ∧ ∀ v ∈ dependencyTargets graph u, ¬Reaches (dependencyTargets graph) v u →
              ∀ call ∈ graph.initCalls (GuestMemory.reads memory) v,
                call ∈ calls.take result.callsCompleted)
        ∧ (result.error = some .invalidFunctionAddress →
          ∃ index call, result.failingCall = some index ∧ calls[index]? = some call
            ∧ result.failingObject = some call.objectIndex
            ∧ (call.entryPc = options.returnPc
              ∨ (call.thumb = false ∧ call.entryPc &&& 3 ≠ 0))) := by
  intro result memory' hrun
  rw [executeElf32InitCalls, hoptions, if_neg Bool.false_ne_true] at hrun
  have hstart : Constructed engine options memory [] memory := .nil memory
  have houtcome := executeInitCallsFrom_outcome [] hstart calls
  rw [List.length_nil, hrun, List.nil_append] at houtcome
  cases houtcome with
  | completed h =>
      refine ⟨fun _ => h, ⟨memory', ?_⟩, fun u hu => ?_, fun herror => ?_⟩
      · rwa [List.take_length]
      · cases hu
      · cases herror
  | refused hcalls hbefore hrefused =>
      obtain ⟨hreach, hsentinel, hdependencies⟩ := planned_dependencies hplan hcalls
      have htake := take_before hcalls
      refine ⟨fun herror => ?_, ⟨_, htake.symm ▸ hbefore⟩, fun u hu => ?_, fun _ => ?_⟩
      · cases herror
      · cases hu
        exact ⟨hreach, htake.symm ▸ hdependencies⟩
      · refine ⟨_, _, rfl, call_at hcalls, rfl, ?_⟩
        rw [Elf32InitCall.refused] at hrefused
        simpa [hsentinel.1, hsentinel.2] using hrefused
  | failed hcalls hbefore haccepted herror =>
      obtain ⟨hreach, -, hdependencies⟩ := planned_dependencies hplan hcalls
      have htake := take_before hcalls
      refine ⟨fun hnone => ?_, ⟨_, htake.symm ▸ hbefore⟩, fun u hu => ?_, fun hinvalid => ?_⟩
      · cases hnone
      · cases hu
        exact ⟨hreach, htake.symm ▸ hdependencies⟩
      · exact absurd (herror.trans hinvalid) (initCallError_ne _)

/-- The plan of a graph whose root fails, after the constructors of its dependencies. -/
theorem planned_constructors_cyclic :
    let calls : List Elf32InitCall :=
      [⟨3, 0, 0x3001⟩, ⟨1, 1, 0x1001⟩, ⟨2, 1, 0x2000⟩, ⟨0, 0, 0x4000⟩]
    let after := executeElf32InitCalls returningEngine returningOptions constructorMemory calls
    after.1.failingObject = some 0
      ∧ ∃ next, Constructed returningEngine returningOptions constructorMemory (calls.take 3)
          next := by
  intro calls after
  have hplan : (planElf32InitArrayCalls cyclicGraph 0 { maxObjects := 4, maxEntries := 6 }).under
      (GuestMemory.reads constructorMemory) = .ok calls := by decide +kernel
  have hoptions : returningOptions.invalid = false := by decide
  have hcompleted : after.1.callsCompleted = 3 := by decide +kernel
  obtain ⟨-, hreturned, -⟩ := planned_constructors returningEngine constructorMemory hplan hoptions
    after.1 after.2 rfl
  exact ⟨by decide +kernel, hcompleted ▸ hreturned⟩

end LibA32Android

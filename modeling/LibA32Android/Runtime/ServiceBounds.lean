/-
The totals of the dispatcher.

To count the instructions and the calls of the handler apart from the totals that the
dispatcher reports, the engine counts its steps beside the memory and the handler lists the
dispositions that it returned.

* `A32Engine.counting`, `A32HostServiceHandler.logging`: the engine and the handler with
  these records, and `erase`, which drops them;
* `referenceRun_erase`: the records change nothing;
* `Accounted`: the records and the totals of a machine agree, step after step;
* `dispatch_bounded`: the dispatcher ends, its totals are exact and within their limits,
  and its guard against a slice over budget never fires.
-/
import LibA32Android.Runtime.ServiceTransparency

namespace LibA32Android

open Foundations

variable {H M : Type}

/-! ### Records -/

/-- The engine with a count of its steps. -/
def A32Engine.counting (engine : A32Engine M) : A32Engine (M × ℕ) where
  step jit memory :=
    let (jit, next, callbacks) := engine.step jit memory.1
    (jit, (next, memory.2 + 1), callbacks)
  freshFpscr := engine.freshFpscr

/-- The handler with a list of the dispositions that it returned. -/
def A32HostServiceHandler.logging (handler : A32HostServiceHandler H M) :
    A32HostServiceHandler (H × List A32HostServiceDisposition) (M × ℕ) where
  handle state memory immediate regs cpsr :=
    let reply := handler.handle state.1 memory.1 immediate regs cpsr
    { disposition := reply.disposition
      handlerState := (reply.handlerState, state.2 ++ [reply.disposition])
      memory := (reply.memory, memory.2)
      regs := reply.regs
      cpsr := reply.cpsr }

/-- The end of a call without the records. -/
def DispatchEnd.erase (final : DispatchEnd (H × List A32HostServiceDisposition) (M × ℕ)) :
    DispatchEnd H M where
  result := final.result
  handlerState := final.handlerState.1
  memory := final.memory.1

/-- The machine without the records. -/
def Machine.erase (m : Machine (H × List A32HostServiceDisposition) (M × ℕ)) : Machine H M where
  jit := m.jit
  memory := m.memory.1
  handlerState := m.handlerState.1
  instructionsExecuted := m.instructionsExecuted
  servicesHandled := m.servicesHandled

section Erase

variable {engine : A32Engine M} {handler : A32HostServiceHandler H M} {maxServiceCalls : ℕ}
  {stopPc : Option UInt32} {resume : JitState → JitState}

lemma Machine.serve_erase (m : Machine (H × List A32HostServiceDisposition) (M × ℕ))
    (immediate : UInt32) :
    (m.serve handler.logging maxServiceCalls resume immediate).map Machine.erase DispatchEnd.erase
      = m.erase.serve handler maxServiceCalls resume immediate := by
  have hhandled : m.erase.servicesHandled = m.servicesHandled := rfl
  rw [Machine.serve, Machine.serve, hhandled]
  by_cases hlimit : m.servicesHandled ≥ maxServiceCalls
  · rw [if_pos hlimit, if_pos hlimit]
    rfl
  · rw [if_neg hlimit, if_neg hlimit]
    have hdisposition : (handler.logging.handle m.handlerState m.memory immediate m.jit.regs
        m.jit.cpsr).disposition = (handler.handle m.erase.handlerState m.erase.memory immediate
          m.erase.jit.regs m.erase.jit.cpsr).disposition := rfl
    dsimp only
    rw [hdisposition]
    cases (handler.handle m.erase.handlerState m.erase.memory immediate m.erase.jit.regs
      m.erase.jit.cpsr).disposition with
    | handled => rfl
    | unhandled => rfl
    | failed => rfl

lemma Machine.step_erase (m : Machine (H × List A32HostServiceDisposition) (M × ℕ)) :
    (m.step engine.counting handler.logging maxServiceCalls resume).map Machine.erase
        DispatchEnd.erase
      = m.erase.step engine handler maxServiceCalls resume := by
  rw [Machine.step, Machine.step]
  have hstep : engine.step m.erase.jit m.erase.memory = engine.step m.jit m.memory.1 := rfl
  have hcounting : engine.counting.step m.jit m.memory
      = ((engine.step m.jit m.memory.1).1,
          ((engine.step m.jit m.memory.1).2.1, m.memory.2 + 1),
          (engine.step m.jit m.memory.1).2.2) := rfl
  rw [hstep, hcounting]
  rcases engine.step m.jit m.memory.1 with ⟨jit, memory, callbacks⟩
  dsimp only
  by_cases hfault : (Environment.after callbacks {}).memoryFault = true
  · rw [if_pos hfault, if_pos hfault]
    rfl
  · rw [if_neg hfault, if_neg hfault]
    cases (Environment.after callbacks {}).svcImmediate with
    | some immediate => exact Machine.serve_erase _ immediate
    | none =>
        dsimp only
        by_cases hraised : (Environment.after callbacks {}).exceptionRaised = true
        · rw [if_pos hraised, if_pos hraised]
          rfl
        · rw [if_neg hraised, if_neg hraised]
          rfl

/-- The records change nothing. -/
lemma referenceRun_erase (n : ℕ) (m : Machine (H × List A32HostServiceDisposition) (M × ℕ)) :
    (referenceRun engine.counting handler.logging maxServiceCalls stopPc resume n m).erase
      = referenceRun engine handler maxServiceCalls stopPc resume n m.erase := by
  have hregs : m.erase.jit.regs = m.jit.regs := rfl
  induction n generalizing m with
  | zero =>
      rw [referenceRun, referenceRun, hregs]
      split
      · rfl
      · rfl
  | succ n ih =>
      rw [referenceRun, referenceRun, hregs]
      split
      · rfl
      · rw [← Machine.step_erase]
        cases m.step engine.counting handler.logging maxServiceCalls resume with
        | inl next => exact ih next rfl
        | inr final => rfl

end Erase

/-! ### Totals -/

/-- The machine with records after some steps, with `left` of its budget `total` left: the
records and the totals agree, and every call so far was handled. -/
structure Machine.Accounted (total maxServiceCalls left : ℕ)
    (m : Machine (H × List A32HostServiceDisposition) (M × ℕ)) : Prop where
  steps : m.instructionsExecuted = m.memory.2
  budget : m.memory.2 + left = total
  handled : m.handlerState.2 = List.replicate m.servicesHandled .handled
  limit : m.servicesHandled ≤ maxServiceCalls

/-- What a call of the dispatcher reports, with the number of steps that the CPU took and
the dispositions that the handler returned. -/
structure DispatchTotals (request : ExecutionRequest) (maxServiceCalls steps : ℕ)
    (calls : List A32HostServiceDisposition) (result : A32ServiceDispatchResult) : Prop where
  steps_le : steps ≤ request.instructionCount
  executed : result.instructionsExecuted = steps
  calls_le : calls.length ≤ maxServiceCalls
  handled : result.servicesHandled = calls.count .handled
  reached : result.error = none → request.stopPc.isSome → result.stopPcReached = true
  stopped : result.stopPcReached = true → request.stopPc = some result.regs.pc
  exhausted : result.error = some .instructionLimitExceeded →
    steps = request.instructionCount ∧ result.stopPcReached = false
      ∧ request.stopPc ≠ some result.regs.pc

/-- The totals at the end of a call with records. -/
def DispatchEnd.Totals (request : ExecutionRequest) (maxServiceCalls : ℕ)
    (final : DispatchEnd (H × List A32HostServiceDisposition) (M × ℕ)) : Prop :=
  DispatchTotals request maxServiceCalls final.memory.2 final.handlerState.2 final.result

namespace Machine

variable {engine : A32Engine M} {handler : A32HostServiceHandler H M} {maxServiceCalls left : ℕ}
  {request : ExecutionRequest} {resume : JitState → JitState}
  {m : Machine (H × List A32HostServiceDisposition) (M × ℕ)}

/-- A stop with an error other than the instruction limit says nothing about the stop PC. -/
lemma totals_of_error {error : A32ServiceDispatchError} {failing : Option UInt32}
    (hsteps : m.instructionsExecuted = m.memory.2) (hbudget : m.memory.2 ≤ request.instructionCount)
    (hcalls : m.handlerState.2.length ≤ maxServiceCalls)
    (hhandled : m.servicesHandled = m.handlerState.2.count .handled)
    (herror : error ≠ .instructionLimitExceeded) :
    (m.stop (some error) failing).Totals request maxServiceCalls where
  steps_le := hbudget
  executed := hsteps
  calls_le := hcalls
  handled := hhandled
  reached h := nomatch h
  stopped h := nomatch h
  exhausted h := absurd (Option.some.inj h) herror

namespace Accounted

lemma count (h : m.Accounted request.instructionCount maxServiceCalls left) :
    m.servicesHandled = m.handlerState.2.count .handled := by
  rw [h.handled, List.count_replicate_self]

lemma length_le (h : m.Accounted request.instructionCount maxServiceCalls left) :
    m.handlerState.2.length ≤ maxServiceCalls := by
  rw [h.handled, List.length_replicate]
  exact h.limit

lemma stop_error (h : m.Accounted request.instructionCount maxServiceCalls left)
    {error : A32ServiceDispatchError} (failing : Option UInt32)
    (herror : error ≠ .instructionLimitExceeded) :
    (m.stop (some error) failing).Totals request maxServiceCalls :=
  totals_of_error h.steps (Nat.le.intro h.budget) h.length_le h.count herror

/-- A stop at the stop PC. -/
lemma stop_reached (h : m.Accounted request.instructionCount maxServiceCalls left)
    (hstop : atStopPc request.stopPc m.jit.regs = true) :
    (m.stop none none true).Totals request maxServiceCalls where
  steps_le := Nat.le.intro h.budget
  executed := h.steps
  calls_le := h.length_le
  handled := h.count
  reached _ _ := rfl
  stopped _ := of_decide_eq_true hstop
  exhausted h := nomatch h

/-- A stop at the end of the budget. -/
lemma stop_exhausted (h : m.Accounted request.instructionCount maxServiceCalls 0)
    (hstop : ¬atStopPc request.stopPc m.jit.regs = true) :
    (m.stop (if request.stopPc.isSome then some .instructionLimitExceeded else none)).Totals
      request maxServiceCalls where
  steps_le := Nat.le.intro h.budget
  executed := h.steps
  calls_le := h.length_le
  handled := h.count
  reached hnone hsome := by
    rw [stop, if_pos hsome] at hnone
    cases hnone
  stopped h := nomatch h
  exhausted _ := ⟨h.budget, rfl, fun heq => hstop (decide_eq_true heq)⟩

/-- A SVC keeps the account or ends with its totals. -/
lemma serve (h : m.Accounted request.instructionCount maxServiceCalls left)
    (immediate : UInt32) :
    (m.serve handler.logging maxServiceCalls resume immediate).elim
      (Accounted request.instructionCount maxServiceCalls left)
      (DispatchEnd.Totals request maxServiceCalls) := by
  rw [Machine.serve]
  by_cases hlimit : m.servicesHandled ≥ maxServiceCalls
  · rw [if_pos hlimit]
    exact h.stop_error _ (by decide)
  rw [if_neg hlimit]
  -- one call more, which is within the limit whatever it returns
  have hcalls : ∀ disposition, (m.handlerState.2 ++ [disposition]).length ≤ maxServiceCalls := by
    intro disposition
    rw [h.handled, List.length_append, List.length_replicate, List.length_singleton]
    omega
  have hcount : ∀ {disposition}, disposition ≠ A32HostServiceDisposition.handled →
      m.servicesHandled = (m.handlerState.2 ++ [disposition]).count .handled := by
    intro disposition hne
    rw [List.count_append, ← h.count, List.count_singleton, beq_eq_false_iff_ne.mpr hne,
      if_neg Bool.false_ne_true, Nat.add_zero]
  dsimp only
  cases hdisposition : (handler.logging.handle m.handlerState m.memory immediate m.jit.regs
    m.jit.cpsr).disposition with
  | unhandled =>
      exact totals_of_error h.steps (Nat.le.intro h.budget) (hcalls _)
        (hcount (ne_of_eq_of_ne hdisposition (by decide))) (by decide)
  | failed =>
      exact totals_of_error h.steps (Nat.le.intro h.budget) (hcalls _)
        (hcount (ne_of_eq_of_ne hdisposition (by decide))) (by decide)
  | handled =>
      refine ⟨h.steps, h.budget, ?_, Nat.lt_of_not_le hlimit⟩
      show m.handlerState.2 ++ [_] = List.replicate (m.servicesHandled + 1) _
      rw [h.handled, List.replicate_succ']
      exact congrArg (fun d => _ ++ [d]) hdisposition

/-- A step keeps the account or ends with its totals. -/
lemma step (h : m.Accounted request.instructionCount maxServiceCalls (left + 1)) :
    (m.step engine.counting handler.logging maxServiceCalls resume).elim
      (Accounted request.instructionCount maxServiceCalls left)
      (DispatchEnd.Totals request maxServiceCalls) := by
  have hcounting : engine.counting.step m.jit m.memory
      = ((engine.step m.jit m.memory.1).1,
          ((engine.step m.jit m.memory.1).2.1, m.memory.2 + 1),
          (engine.step m.jit m.memory.1).2.2) := rfl
  rw [Machine.step, hcounting]
  rcases engine.step m.jit m.memory.1 with ⟨jit, memory, callbacks⟩
  dsimp only
  have hnext : Accounted request.instructionCount maxServiceCalls left
      { m with
        jit := jit, memory := (memory, m.memory.2 + 1)
        instructionsExecuted := m.instructionsExecuted + 1 } := by
    have hbudget := h.budget
    refine ⟨congrArg (· + 1) h.steps, ?_, h.handled, h.limit⟩
    show m.memory.2 + 1 + left = _
    omega
  by_cases hfault : (Environment.after callbacks {}).memoryFault = true
  · rw [if_pos hfault]
    exact hnext.stop_error _ (by decide)
  rw [if_neg hfault]
  cases (Environment.after callbacks {}).svcImmediate with
  | some immediate => exact hnext.serve immediate
  | none =>
      dsimp only
      by_cases hraised : (Environment.after callbacks {}).exceptionRaised = true
      · rw [if_pos hraised]
        exact hnext.stop_error _ (by decide)
      · rw [if_neg hraised]
        exact hnext

/-- **The totals of a run**, by induction on the budget that is left. -/
lemma run {n : ℕ} (h : m.Accounted request.instructionCount maxServiceCalls n) :
    (referenceRun engine.counting handler.logging maxServiceCalls request.stopPc resume n
      m).Totals request maxServiceCalls := by
  induction n generalizing m with
  | zero =>
      rw [referenceRun]
      split
      · exact h.stop_reached ‹_›
      · exact h.stop_exhausted ‹_›
  | succ n ih =>
      rw [referenceRun]
      split
      · exact h.stop_reached ‹_›
      · have hstep : (m.step engine.counting handler.logging maxServiceCalls resume).elim
            (Accounted request.instructionCount maxServiceCalls n)
            (DispatchEnd.Totals request maxServiceCalls) := h.step
        cases hround : m.step engine.counting handler.logging maxServiceCalls resume with
        | inl next =>
            rw [hround] at hstep
            exact ih hstep
        | inr final =>
            rw [hround] at hstep
            exact hstep

end Accounted

end Machine

/-- **Dispatch is bounded.**  For every engine, handler, request and limit the dispatcher
ends.  The CPU takes at most the requested number of steps, which is the number reported;
the handler is called at most as often as allowed, and the services reported are the calls
that returned `Handled`.  Without an error a requested stop PC was reached; a stop PC that
is reported as reached is the PC; the instruction limit is reported only at the end of the
budget and away from the stop PC.  No slice exceeds the budget that is left. -/
theorem dispatch_bounded (engine : A32Engine M) (memory : M) (request : ExecutionRequest)
    (handler : A32HostServiceHandler H M) (handlerState : H) (maxServiceCalls : ℕ) :
    (∃ final, executeA32WithServices engine.counting (memory, 0) request handler.logging
          (handlerState, []) maxServiceCalls = some final
        ∧ executeA32WithServices engine memory request handler handlerState maxServiceCalls
          = some final.erase
        ∧ DispatchTotals request maxServiceCalls final.memory.2 final.handlerState.2 final.result)
      ∧ ∀ d : Dispatch H M, ¬(execute engine d.memory { d.request with
          instructionCount := d.remainingInstructions }).1.instructionsExecuted
            > d.remainingInstructions := by
  refine ⟨⟨_, executeA32WithServices_eq_referenceRun engine.counting _ _ _ _ _, ?_, ?_⟩, ?_⟩
  · have hresume : freshResume engine.counting = freshResume engine := rfl
    rw [executeA32WithServices_eq_referenceRun, hresume, referenceRun_erase]
    rfl
  · exact Machine.Accounted.run ⟨rfl, Nat.zero_add _, rfl, Nat.zero_le _⟩
  · intro d
    exact Nat.not_lt.mpr (execute_within engine d.memory _).1

end LibA32Android

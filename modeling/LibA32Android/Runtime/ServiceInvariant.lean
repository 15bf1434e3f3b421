/-
Invariants of the services over a dispatched run.

* `A32HostServiceHandler.ServesAt`: what a call of the handler does to a property of the
  number of services and of the state of the handler;
* `DispatchEnd.Serviced`: what is known at the end of a run, after a service that was
  refused and otherwise;
* `executeA32WithServices_serviced`: one call after the other, over a whole run;
* `dispatch_of_larger_limits`: a run that ended before its limits ends so under larger ones.
-/
import LibA32Android.Runtime.DispatchSimulation

namespace LibA32Android

open Foundations

variable {H M : Type}

/-! ### One call -/

/-- A call for an immediate below the limit: a service that is handled takes `K` to `K` with
one service more, and one that is not leaves `F`. -/
structure A32HostServiceHandler.ServesAt (handler : A32HostServiceHandler H M)
    (maxServiceCalls : ℕ) (K : ℕ → H → Prop)
    (F : ℕ → UInt32 → A32HostServiceDisposition → H → Prop) (immediate : UInt32) : Prop where
  handled : ∀ {n state memory regs cpsr}, n < maxServiceCalls → K n state →
    (handler.handle state memory immediate regs cpsr).disposition = .handled →
    K (n + 1) (handler.handle state memory immediate regs cpsr).handlerState
  refused : ∀ {n state memory regs cpsr disposition}, n < maxServiceCalls → K n state →
    (handler.handle state memory immediate regs cpsr).disposition = disposition →
    disposition ≠ .handled →
    F n immediate disposition (handler.handle state memory immediate regs cpsr).handlerState

/-- The end of a run: `F` for the service that was refused, and `K` if none was. -/
structure DispatchEnd.Serviced (K : ℕ → H → Prop)
    (F : ℕ → UInt32 → A32HostServiceDisposition → H → Prop) (final : DispatchEnd H M) :
    Prop where
  kept : final.result.error ≠ some .serviceUnhandled → final.result.error ≠ some .serviceFailed →
    K final.result.servicesHandled final.handlerState
  unhandled : final.result.error = some .serviceUnhandled →
    ∃ immediate, final.result.failingSvcImmediate = some immediate
      ∧ F final.result.servicesHandled immediate .unhandled final.handlerState
  failed : final.result.error = some .serviceFailed →
    ∃ immediate, final.result.failingSvcImmediate = some immediate
      ∧ F final.result.servicesHandled immediate .failed final.handlerState

/-- What a service that is refused keeps too holds at every end. -/
lemma DispatchEnd.Serviced.always {K : ℕ → H → Prop}
    {F : ℕ → UInt32 → A32HostServiceDisposition → H → Prop} {final : DispatchEnd H M}
    (h : final.Serviced K F)
    (hrefused : ∀ {n immediate disposition state}, F n immediate disposition state → K n state) :
    K final.result.servicesHandled final.handlerState := by
  by_cases hunhandled : final.result.error = some .serviceUnhandled
  · obtain ⟨_, -, hend⟩ := h.unhandled hunhandled
    exact hrefused hend
  by_cases hfailed : final.result.error = some .serviceFailed
  · obtain ⟨_, -, hend⟩ := h.failed hfailed
    exact hrefused hend
  exact h.kept hunhandled hfailed

/-! ### Runs -/

section Runs

variable {engine : A32Engine M} {handler : A32HostServiceHandler H M} {maxServiceCalls : ℕ}
  {stopPc : Option UInt32} {resume : JitState → JitState} {K : ℕ → H → Prop}
  {F : ℕ → UInt32 → A32HostServiceDisposition → H → Prop} {m : Machine H M}

namespace Machine

/-- The property of a machine. -/
def Serving (K : ℕ → H → Prop) (m : Machine H M) : Prop := K m.servicesHandled m.handlerState

/-- A run that ends for another reason. -/
lemma Serving.stop (h : m.Serving K) {error : Option A32ServiceDispatchError}
    (hunhandled : error ≠ some .serviceUnhandled) (hfailed : error ≠ some .serviceFailed)
    (failing : Option UInt32) (reached : Bool) :
    (m.stop error failing reached).Serviced K F where
  kept _ _ := h
  unhandled herror := absurd herror hunhandled
  failed herror := absurd herror hfailed

lemma Serving.serve (h : m.Serving K) {immediate : UInt32}
    (hserves : handler.ServesAt maxServiceCalls K F immediate) :
    (m.serve handler maxServiceCalls resume immediate).elim (Serving K)
      (DispatchEnd.Serviced K F) := by
  rw [Machine.serve]
  by_cases hlimit : m.servicesHandled ≥ maxServiceCalls
  · rw [if_pos hlimit]
    exact h.stop (by decide) (by decide) _ _
  rw [if_neg hlimit]
  have hbelow : m.servicesHandled < maxServiceCalls := Nat.lt_of_not_le hlimit
  dsimp only
  cases hdisposition : (handler.handle m.handlerState m.memory immediate m.jit.regs
    m.jit.cpsr).disposition with
  | handled => exact hserves.handled hbelow h hdisposition
  | unhandled =>
    have hrefused := hserves.refused hbelow h hdisposition (by decide)
    refine ⟨fun hne => absurd rfl hne, fun _ => ⟨immediate, rfl, hrefused⟩, fun heq => ?_⟩
    cases heq
  | failed =>
    have hrefused := hserves.refused hbelow h hdisposition (by decide)
    refine ⟨fun _ hne => absurd rfl hne, fun heq => ?_, fun _ => ⟨immediate, rfl, hrefused⟩⟩
    cases heq

lemma Serving.step (h : m.Serving K)
    (hserves : ∀ immediate, handler.ServesAt maxServiceCalls K F immediate) :
    (m.step engine handler maxServiceCalls resume).elim (Serving K)
      (DispatchEnd.Serviced K F) := by
  rw [Machine.step]
  rcases engine.step m.jit m.memory with ⟨jit, memory, callbacks⟩
  -- an instruction does not reach the handler
  have hnext : Serving K { m with
      jit := jit, memory := memory, instructionsExecuted := m.instructionsExecuted + 1 } := h
  dsimp only
  split
  · exact hnext.stop (by decide) (by decide) _ _
  · cases (Environment.after callbacks {}).svcImmediate with
    | some immediate => exact hnext.serve (hserves immediate)
    | none =>
      dsimp only
      split
      · exact hnext.stop (by decide) (by decide) _ _
      · exact hnext

/-- **A run keeps what its services keep.** -/
lemma Serving.run (h : m.Serving K)
    (hserves : ∀ immediate, handler.ServesAt maxServiceCalls K F immediate) (n : ℕ) :
    (referenceRun engine handler maxServiceCalls stopPc resume n m).Serviced K F := by
  have hexhausted : ∀ (m : Machine H M), m.Serving K →
      (m.stop (if stopPc.isSome then some .instructionLimitExceeded else none)).Serviced K F := by
    intro m h
    split
    · exact h.stop (by decide) (by decide) _ _
    · exact h.stop (by decide) (by decide) _ _
  induction n generalizing m with
  | zero =>
    rw [referenceRun]
    split
    · exact h.stop (by decide) (by decide) _ _
    · exact hexhausted m h
  | succ n ih =>
    rw [referenceRun]
    split
    · exact h.stop (by decide) (by decide) _ _
    · have hstep : (m.step engine handler maxServiceCalls resume).elim (Serving K)
          (DispatchEnd.Serviced K F) := h.step hserves
      cases hround : m.step engine handler maxServiceCalls resume with
      | inl next =>
        rw [hround] at hstep
        exact ih hstep
      | inr final =>
        rw [hround] at hstep
        exact hstep

end Machine

/-- The rule for calls of the dispatcher. -/
lemma executeA32WithServices_serviced
    (hserves : ∀ immediate, handler.ServesAt maxServiceCalls K F immediate) {state : H}
    (hstart : K 0 state) (engine : A32Engine M) (memory : M) (request : ExecutionRequest) :
    ∃ final, executeA32WithServices engine memory request handler state maxServiceCalls
        = some final ∧ final.Serviced K F := by
  refine ⟨_, executeA32WithServices_eq_referenceRun engine memory request handler state _, ?_⟩
  have hserving : (Machine.start engine memory request state).Serving K := hstart
  exact hserving.run hserves _

end Runs

/-! ### Larger limits -/

/-- The run ended at its stop PC or with an error that is not about a limit. -/
def A32ServiceDispatchResult.Settled (result : A32ServiceDispatchResult) : Prop :=
  result.error ≠ some .instructionLimitExceeded ∧ result.error ≠ some .serviceLimitExceeded
    ∧ (result.error = none → result.stopPcReached = true)

instance (result : A32ServiceDispatchResult) : Decidable result.Settled :=
  inferInstanceAs (Decidable (_ ∧ _ ∧ _))

section Limits

variable {engine : A32Engine M} {handler : A32HostServiceHandler H M}
  {maxServiceCalls maxServiceCalls' : ℕ} {stopPc : Option UInt32} {resume : JitState → JitState}

/-- A service under a larger limit does the same, unless the limit ends the run. -/
lemma Machine.serve_of_larger (hlimit : maxServiceCalls ≤ maxServiceCalls') (m : Machine H M)
    (immediate : UInt32) :
    m.serve handler maxServiceCalls' resume immediate
        = m.serve handler maxServiceCalls resume immediate
      ∨ ∃ final, m.serve handler maxServiceCalls resume immediate = .inr final
        ∧ ¬final.result.Settled := by
  by_cases hreached : m.servicesHandled ≥ maxServiceCalls
  · exact .inr ⟨_, if_pos hreached, fun hsettled => hsettled.2.1 rfl⟩
  · left
    rw [Machine.serve, Machine.serve, if_neg hreached,
      if_neg fun hreached' => hreached (hlimit.trans hreached')]

lemma Machine.step_of_larger (hlimit : maxServiceCalls ≤ maxServiceCalls') (m : Machine H M) :
    m.step engine handler maxServiceCalls' resume = m.step engine handler maxServiceCalls resume
      ∨ ∃ final, m.step engine handler maxServiceCalls resume = .inr final
        ∧ ¬final.result.Settled := by
  rw [Machine.step, Machine.step]
  rcases engine.step m.jit m.memory with ⟨jit, memory, callbacks⟩
  dsimp only
  split
  · exact .inl rfl
  · cases (Environment.after callbacks {}).svcImmediate with
    | some immediate => exact Machine.serve_of_larger hlimit _ immediate
    | none => exact .inl rfl

/-- A machine under larger limits, by induction on the smaller budget. -/
lemma referenceRun_of_larger (hlimit : maxServiceCalls ≤ maxServiceCalls') {n n' : ℕ}
    (hbudget : n ≤ n') (m : Machine H M)
    (hsettled :
      (referenceRun engine handler maxServiceCalls stopPc resume n m).result.Settled) :
    referenceRun engine handler maxServiceCalls' stopPc resume n' m
      = referenceRun engine handler maxServiceCalls stopPc resume n m := by
  by_cases hstop : atStopPc stopPc m.jit.regs = true
  · rw [referenceRun_of_stop hstop, referenceRun_of_stop hstop]
  induction n generalizing m n' with
  | zero =>
    -- the budget is used up, which is one of the limits
    rw [referenceRun, if_neg hstop] at hsettled
    obtain ⟨hinstructions, -, hreached⟩ := hsettled
    cases stopPc with
    | none => exact absurd (hreached rfl) Bool.false_ne_true
    | some pc => exact absurd rfl hinstructions
  | succ n ih =>
    obtain ⟨n', rfl⟩ : ∃ k, n' = k + 1 := ⟨n' - 1, by omega⟩
    rw [referenceRun, if_neg hstop] at hsettled
    rw [referenceRun, referenceRun, if_neg hstop, if_neg hstop]
    have hstep : m.step engine handler maxServiceCalls' resume
          = m.step engine handler maxServiceCalls resume
        ∨ ∃ final, m.step engine handler maxServiceCalls resume = .inr final
          ∧ ¬final.result.Settled := Machine.step_of_larger hlimit m
    rcases hstep with hsame | ⟨final, hfinal, hlimited⟩
    · rw [hsame]
      cases hround : m.step engine handler maxServiceCalls resume with
      | inl next =>
        rw [hround] at hsettled
        rw [Sum.elim_inl, Sum.elim_inl]
        by_cases hnext : atStopPc stopPc next.jit.regs = true
        · rw [referenceRun_of_stop hnext, referenceRun_of_stop hnext]
        · exact ih (Nat.le_of_succ_le_succ hbudget) next hsettled hnext
      | inr final => rfl
    · rw [hfinal] at hsettled
      exact absurd hsettled hlimited

end Limits

/-- **Limits never change an answer.**  A call of the dispatcher that ended at its stop PC, or
with an error that is not about a limit, ends in the same result, memory and state of the
handler when it is allowed more instructions and more services. -/
theorem dispatch_of_larger_limits (engine : A32Engine M) (handler : A32HostServiceHandler H M)
    (memory : M) (request : ExecutionRequest) (state : H) {maxServiceCalls : ℕ}
    {final : DispatchEnd H M}
    (hrun : executeA32WithServices engine memory request handler state maxServiceCalls
      = some final)
    (hsettled : final.result.Settled) {instructionCount maxServiceCalls' : ℕ}
    (hcount : request.instructionCount ≤ instructionCount)
    (hlimit : maxServiceCalls ≤ maxServiceCalls') :
    executeA32WithServices engine memory { request with instructionCount } handler state
      maxServiceCalls' = some final := by
  rw [executeA32WithServices_eq_referenceRun, Option.some_inj] at hrun ⊢
  rw [← hrun] at hsettled ⊢
  exact referenceRun_of_larger hlimit hcount (Machine.start engine memory request state) hsettled

/-- An instruction set with one instruction: SVC 7. -/
def trapEngine : A32Engine Unit where
  step jit memory := (jit, memory, [.callSvc 7])
  freshFpscr := 0

/-- A handler that sends the guest to address 8. -/
def returningHandler : A32HostServiceHandler Unit Unit where
  handle state memory _ regs cpsr := ⟨.handled, state, memory, regs.setPc 8, cpsr⟩

/-- One instruction and one service, with just enough of both and with more. -/
theorem dispatch_of_larger_limits_trap :
    let request : ExecutionRequest := { instructionCount := 1, stopPc := some 8 }
    ∃ final, final.result.servicesHandled = 1
      ∧ executeA32WithServices trapEngine () request returningHandler () 1 = some final
      ∧ executeA32WithServices trapEngine () { request with instructionCount := 100 }
        returningHandler () 9 = some final := by
  intro request
  have hrun : executeA32WithServices trapEngine () request returningHandler () 1
      = some ⟨{ regs := request.regs.setPc 8, cpsr := request.startCpsr
                instructionsExecuted := 1, servicesHandled := 1, stopPcReached := true },
          (), ()⟩ := by
    decide
  exact ⟨_, rfl, hrun, dispatch_of_larger_limits trapEngine returningHandler () request () hrun
    (by decide) (by decide) (by decide)⟩

end LibA32Android

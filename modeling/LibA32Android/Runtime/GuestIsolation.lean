/-
What guest code can do to memory, and what it can learn from it.

Engines reach memory through the callbacks only, and handlers through the interface.
`execute` sets `fastmem_pointer` for the sparse backend, so that for it these results are
joined with `fastmem_dispatch`.  Over whole calls of `execute_a32_with_services`, with any
number of services:

* `dispatch_confined`: only bytes of writable pages change;
* `dispatch_noninterference`: bytes that can be neither read nor fetched have no influence;
* `FastMemory.Assumed`: what is assumed of data accesses that go directly to the host pages,
  and `fastmem_dispatch`: with them the run is the one with callbacks only;
* `dispatch_backends_agree`: the contiguous backend and the sparse one give the same run.
-/
import LibA32Android.Memory.HostPages
import LibA32Android.Runtime.DispatchSimulation

namespace LibA32Android

open Foundations

variable {H : Type}

/-! ### Confinement -/

section Confinement

variable {m : MappedGuestMemory}

/-- What was changed so far, as a relation between a memory and itself. -/
lemma respond_confined (call : MemoryCall) (m₁ m₂ : MappedGuestMemory)
    (h : m₁ = m₂ ∧ m.WrittenTo m₁) :
    (call.respond m₁).1 = (call.respond m₂).1
      ∧ (call.respond m₁).2 = (call.respond m₂).2 ∧ m.WrittenTo (call.respond m₁).2 := by
  obtain ⟨rfl, hwritten⟩ := h
  exact ⟨rfl, rfl, hwritten.respond call⟩

lemma execute_confined (engine : CallbackEngine) (m : MappedGuestMemory)
    (request : ExecutionRequest) :
    m.WrittenTo (execute (engine.on MappedGuestMemory) m request).2 :=
  (execute_simulation (engine.against_simulates fun call m₁ m₂ _ => respond_confined call m₁ m₂)
    ⟨rfl, .refl m⟩ request).2.2

/-- A call of the dispatcher ends, and has written to writable pages. -/
lemma dispatch_writtenTo (engine : CallbackEngine) (program : ServiceProgram H)
    (m : MappedGuestMemory) (request : ExecutionRequest) (state : H) (maxServiceCalls : ℕ) :
    ∃ final, executeA32WithServices (engine.on MappedGuestMemory) m request
        (program.on MappedGuestMemory) state maxServiceCalls = some final
      ∧ m.WrittenTo final.memory := by
  obtain ⟨final, _, hrun, -, hend⟩ := ServiceProgram.dispatch_in_step
    (fun _ _ _ _ => .of_true _) (fun call m₁ m₂ _ => respond_confined call m₁ m₂)
    (fun call m₁ m₂ _ => respond_confined call m₁ m₂) engine ⟨rfl, .refl m⟩ state request
    maxServiceCalls
  exact ⟨final, hrun, hend.memory.2⟩

/-- **Guest code is confined to its writable pages.**  For every instruction set, every
handler, every request and all limits, a call of the dispatcher leaves a memory with the
same page states and host pages, has made no host call, and has left the bytes of every
page that is unmapped or not writable. -/
theorem dispatch_confined (engine : CallbackEngine) (program : ServiceProgram H)
    (m : MappedGuestMemory) (request : ExecutionRequest) (state : H) (maxServiceCalls : ℕ) :
    ∃ final, executeA32WithServices (engine.on MappedGuestMemory) m request
        (program.on MappedGuestMemory) state maxServiceCalls = some final
      ∧ final.memory.pageState = m.pageState ∧ final.memory.hostProtection = m.hostProtection
      ∧ final.memory.hostCalls = m.hostCalls
      ∧ ∀ x, ¬m.Grants .write (x / m.pageSize) → final.memory.reservation x = m.reservation x := by
  obtain ⟨final, hrun, bytes, hmemory, hbytes⟩ :=
    dispatch_writtenTo engine program m request state maxServiceCalls
  refine ⟨final, hrun, ?_⟩
  rw [hmemory]
  exact ⟨rfl, rfl, rfl, hbytes⟩

end Confinement

/-! ### Non-interference -/

/-- **Guest code sees the bytes that it may read or fetch, and no others.**  On two memories
with the same pages that agree on these bytes, every call of the dispatcher over the callbacks
has the same result and leaves the same state of the handler, and the memories still agree. -/
theorem dispatch_noninterference (engine : CallbackEngine) (program : ServiceProgram H)
    {m m' : MappedGuestMemory} (h : m.LooksAlike m') (request : ExecutionRequest) (state : H)
    (maxServiceCalls : ℕ) :
    ∃ final final', executeA32WithServices (engine.on MappedGuestMemory) m request
          (program.on MappedGuestMemory) state maxServiceCalls = some final
        ∧ executeA32WithServices (engine.on MappedGuestMemory) m' request
          (program.on MappedGuestMemory) state maxServiceCalls = some final'
        ∧ final.result = final'.result ∧ final.handlerState = final'.handlerState
        ∧ final.memory.LooksAlike final'.memory := by
  obtain ⟨final, final', hrun, hrun', hend⟩ := ServiceProgram.dispatch_in_step
    (fun _ _ _ _ => .of_true _) (fun call _ _ _ h => h.respond call)
    (fun call _ _ _ h => h.respond call) engine h state request maxServiceCalls
  exact ⟨final, final', hrun, hrun', hend.result, hend.handlerState, hend.memory⟩

/-- An instruction set with one instruction: load the byte at `0x1000` into the CPSR. -/
def loadByteEngine : CallbackEngine where
  step jit := .call (.memoryRead8 0x1000) fun byte => .done { jit with cpsr := byte.toUInt32 }
  freshFpscr := 0

/-- A handler that knows no service. -/
def noServices : ServiceProgram Unit where
  handle state _ regs cpsr := .done ⟨.unhandled, state, regs, cpsr⟩

lemma noServices_spans : noServices.Makes fun call => 0 < call.length := fun _ _ _ _ => .done _

/-- A memory with one page, and another one with a byte on a page that is not mapped. -/
def onePage : MappedGuestMemory :=
  ((MappedGuestMemory.create 4096 (fun _ _ => true) MappedGuestMemory.fourKiB_dvd).map
    0x1000 0x1000 (.read ||| .write)).2

def onePageMore : MappedGuestMemory := onePage.withBytes fun x => if x = 0 then 9 else 0

lemma onePage_looksAlike : onePage.LooksAlike onePageMore := by
  refine ⟨rfl, rfl, fun x hgrants => if_neg ?_⟩
  rintro rfl
  have hunmapped : ¬onePage.Mapped (0 / onePage.pageSize) := by decide +kernel
  exact hgrants.elim (fun h => hunmapped h.1) fun h => hunmapped h.1

theorem dispatch_noninterference_unmapped :
    onePage.reservation 0 ≠ onePageMore.reservation 0
      ∧ ∃ final final',
        executeA32WithServices (loadByteEngine.on MappedGuestMemory) onePage {}
            (noServices.on MappedGuestMemory) () 1 = some final
          ∧ executeA32WithServices (loadByteEngine.on MappedGuestMemory) onePageMore {}
            (noServices.on MappedGuestMemory) () 1 = some final'
          ∧ final.result = final'.result := by
  obtain ⟨final, final', hrun, hrun', hresult, -⟩ :=
    dispatch_noninterference loadByteEngine noServices onePage_looksAlike {} () 1
  exact ⟨by decide +kernel, final, final', hrun, hrun', hresult⟩

/-! ### Direct accesses -/

/-- The sparse memory behind a translator with `fastmem_pointer` set, with the state of the
translator: what it has compiled so far, and how. -/
structure FastMemory (T : Type) where
  memory : MappedGuestMemory
  translator : T

namespace FastMemory

variable {T : Type}

/-- What is assumed of a translator with `fastmem_pointer` set and of the host below it.
Neither is part of the source: `respond` is how they serve a memory call of guest code, and
`completes` tells the calls that are made directly at the reservation and do not fault. -/
structure Assumed (completes : MemoryCall → FastMemory T → Prop)
    (respond : (call : MemoryCall) → FastMemory T → call.Answer × FastMemory T) : Prop where
  /-- Code is fetched through `MemoryReadCode`. -/
  fetched : ∀ address length s, ¬completes (.readCode address length) s
  /-- Any other call goes to its callback, also one that has faulted as a direct access
  (`recompile_on_fastmem_failure`), and finds the bytes as they were: a store that faults has
  stored nothing. -/
  callback : ∀ call s, ¬completes call s → (respond call s).1 = (call.respond s.memory).1
    ∧ (respond call s).2.memory = (call.respond s.memory).2
  /-- No direct access completes beyond the 4 GiB of the reservation.  The source has no guard
  page behind them, so this is up to what the host has there. -/
  inside : ∀ call s, completes call s → call.address.toNat + call.length ≤ 2 ^ 32
  /-- The host lets loads complete where it has granted them. -/
  readable : ∀ address length s, completes (.read address length) s → ∀ x, address.toNat ≤ x →
    x < address.toNat + length →
      (s.memory.hostProtection (x / s.memory.pageSize)).read = true
  /-- The host lets stores complete where it has granted them. -/
  writable : ∀ address input s, completes (.write address input) s → ∀ x, address.toNat ≤ x →
    x < address.toNat + input.length →
      (s.memory.hostProtection (x / s.memory.pageSize)).write = true
  /-- A direct load delivers the bytes of the reservation. -/
  loaded : ∀ address length s, completes (.read address length) s →
    (respond (.read address length) s).1 = some (window s.memory.reservation address.toNat length)
      ∧ (respond (.read address length) s).2.memory = s.memory
  /-- A direct store that completes stores all of its bytes. -/
  stored : ∀ address input s, completes (.write address input) s →
    (respond (.write address input) s).1 = true
      ∧ (respond (.write address input) s).2.memory
        = s.memory.withBytes (overwrite s.memory.reservation address.toNat input)

/-- The services of the host use the memory interface. -/
def respondPlain (call : MemoryCall) (s : FastMemory T) : call.Answer × FastMemory T :=
  let answer := call.respond s.memory
  (answer.1, { s with memory := answer.2 })

/-- The memory is the one with callbacks only, and its host pages follow the page states. -/
def Mirrors (s : FastMemory T) (m : MappedGuestMemory) : Prop := s.memory = m ∧ m.HostFollows

variable {s : FastMemory T} {m : MappedGuestMemory}

lemma Mirrors.respondPlain (h : s.Mirrors m) (call : MemoryCall) :
    (respondPlain call s).1 = (call.respond m).1
      ∧ (FastMemory.respondPlain call s).2.Mirrors (call.respond m).2 := by
  obtain ⟨rfl, hfollows⟩ := h
  refine ⟨rfl, rfl, ?_⟩
  cases call with
  | read address length => exact hfollows
  | readCode address length => exact hfollows
  | write address input =>
      rcases hwrite : GuestMemory.write s.memory address input with ⟨_ | _, m'⟩
      · obtain ⟨-, rfl⟩ := MappedGuestMemory.write_eq_false hwrite
        simpa only [MemoryCall.respond, hwrite] using hfollows
      · obtain ⟨-, rfl⟩ := MappedGuestMemory.write_eq_true hwrite
        simp only [MemoryCall.respond, hwrite]
        exact hfollows.congr rfl rfl

section Assumptions

variable {completes : MemoryCall → FastMemory T → Prop}
  {respond : (call : MemoryCall) → FastMemory T → call.Answer × FastMemory T}

/-- A direct load that completes is one that the callback would serve. -/
lemma Assumed.read_eq (hassumed : Assumed completes respond) (hfollows : s.memory.HostFollows)
    {address : UInt32} {length : ℕ} (h : completes (.read address length) s) :
    GuestMemory.read s.memory address length
      = some (window s.memory.reservation address.toNat length) := by
  refine if_pos (MappedGuestMemory.validAccess_iff.mpr (.inr ⟨hassumed.inside _ s h, ?_⟩))
  exact fun x hge hlt => hfollows.read_iff.mp (hassumed.readable address length s h x hge hlt)

/-- So is a direct store. -/
lemma Assumed.write_eq (hassumed : Assumed completes respond) (hfollows : s.memory.HostFollows)
    {address : UInt32} {input : List UInt8} (h : completes (.write address input) s) :
    GuestMemory.write s.memory address input
      = (true, s.memory.withBytes (overwrite s.memory.reservation address.toNat input)) := by
  refine if_pos (MappedGuestMemory.validAccess_iff.mpr (.inr ⟨hassumed.inside _ s h, ?_⟩))
  exact fun x hge hlt => hfollows.write_iff.mp (hassumed.writable address input s h x hge hlt)

/-- **A direct access is the callback's access.** -/
lemma Mirrors.served (h : s.Mirrors m) (hassumed : Assumed completes respond)
    (call : MemoryCall) :
    (respond call s).1 = (call.respond m).1 ∧ (respond call s).2.Mirrors (call.respond m).2 := by
  have hplain := h.respondPlain call
  obtain ⟨rfl, hfollows⟩ := h
  have hsame : (respond call s).1 = (call.respond s.memory).1
      ∧ (respond call s).2.memory = (call.respond s.memory).2 := by
    by_cases hdirect : completes call s
    · cases call with
      | read address length =>
          obtain ⟨hanswer, hmemory⟩ := hassumed.loaded address length s hdirect
          exact ⟨hanswer.trans (hassumed.read_eq hfollows hdirect).symm, hmemory⟩
      | readCode address length => exact absurd hdirect (hassumed.fetched address length s)
      | write address input =>
          obtain ⟨hanswer, hmemory⟩ := hassumed.stored address input s hdirect
          rw [hanswer, hmemory, MemoryCall.respond, hassumed.write_eq hfollows hdirect]
          exact ⟨rfl, rfl⟩
    · exact hassumed.callback call s hdirect
  exact ⟨hsame.1, hsame.2, hplain.2.2⟩

end Assumptions

end FastMemory

/-- **Direct accesses change nothing** while the host pages of the memory follow its page
states: whichever data accesses the translator makes directly, a call of the dispatcher ends
as it does with callbacks only. -/
lemma fastmem_dispatch (engine : CallbackEngine) (program : ServiceProgram H)
    {m : MappedGuestMemory} (h : m.HostFollows) {T : Type}
    {completes : MemoryCall → FastMemory T → Prop}
    {respond : (call : MemoryCall) → FastMemory T → call.Answer × FastMemory T}
    (hassumed : FastMemory.Assumed completes respond) (translator : T)
    (request : ExecutionRequest) (state : H) (maxServiceCalls : ℕ) :
    ∃ final fast, executeA32WithServices (engine.on MappedGuestMemory) m request
          (program.on MappedGuestMemory) state maxServiceCalls = some final
        ∧ executeA32WithServices (engine.against respond) ⟨m, translator⟩ request
          (program.against FastMemory.respondPlain) state maxServiceCalls = some fast
        ∧ fast.result = final.result ∧ fast.handlerState = final.handlerState
        ∧ fast.memory.memory = final.memory := by
  have hstart : FastMemory.Mirrors ⟨m, translator⟩ m := ⟨rfl, h⟩
  obtain ⟨fast, final, hfast, hrun, hend⟩ := ServiceProgram.dispatch_in_step
    (fun _ _ _ _ => .of_true _) (fun call _ _ _ h => h.served hassumed call)
    (fun call _ _ _ h => h.respondPlain call) engine hstart state request maxServiceCalls
  exact ⟨final, fast, hrun, hfast, hend.result, hend.handlerState, hend.memory.1⟩

/-! ### Backends -/

/-- **The contiguous backend runs guest code as the sparse one does.**  Let a sparse memory
have the range of a contiguous one as its only mapping, with all permissions and the same
bytes.  Calls of the dispatcher over the callbacks have the same result on both, whatever the
engine does and whatever the handler does with non-empty spans, and the bytes still agree. -/
theorem dispatch_backends_agree (engine : CallbackEngine) {program : ServiceProgram H}
    (hprogram : program.Makes fun call => 0 < call.length) {linear : LinearGuestMemory}
    {mapped : MappedGuestMemory} (h : AgreeFully linear mapped) (request : ExecutionRequest)
    (state : H) (maxServiceCalls : ℕ) :
    ∃ final final', executeA32WithServices (engine.on LinearGuestMemory) linear request
          (program.on LinearGuestMemory) state maxServiceCalls = some final
        ∧ executeA32WithServices (engine.on MappedGuestMemory) mapped request
          (program.on MappedGuestMemory) state maxServiceCalls = some final'
        ∧ final.result = final'.result ∧ final.handlerState = final'.handlerState
        ∧ AgreeFully final.memory final'.memory := by
  obtain ⟨final, final', hrun, hrun', hend⟩ := ServiceProgram.dispatch_in_step hprogram
    (fun _ _ _ hspan h => h.respond hspan) (fun _ _ _ hspan h => h.respond hspan) engine h state
    request maxServiceCalls
  exact ⟨final, final', hrun, hrun', hend.result, hend.handlerState, hend.memory⟩

/-- One page of both backends. -/
lemma exists_agreeFully : ∃ linear mapped,
    LinearGuestMemory.create 0x1000 0x1000 = some linear ∧ AgreeFully linear mapped := by
  have hmap : ((MappedGuestMemory.create 4096 (fun _ _ => true) MappedGuestMemory.fourKiB_dvd).map
      0x1000 0x1000 (.read ||| .write ||| .execute)).1 = true := by decide
  obtain ⟨honly, hzero⟩ := MappedGuestMemory.map_onlyMapping (by decide) (Prod.ext hmap rfl)
  obtain ⟨linear, hcreate, hagree⟩ := AgreeFully.create (by decide) honly fun x _ _ => hzero x
  exact ⟨linear, _, hcreate, hagree⟩

theorem dispatch_backends_agree_page : ∃ linear mapped final final',
    LinearGuestMemory.create 0x1000 0x1000 = some linear
      ∧ executeA32WithServices (loadByteEngine.on LinearGuestMemory) linear {}
          (noServices.on LinearGuestMemory) () 1 = some final
      ∧ executeA32WithServices (loadByteEngine.on MappedGuestMemory) mapped {}
          (noServices.on MappedGuestMemory) () 1 = some final'
      ∧ final.result = final'.result := by
  obtain ⟨linear, mapped, hcreate, hagree⟩ := exists_agreeFully
  obtain ⟨final, final', hrun, hrun', hresult, -⟩ := dispatch_backends_agree loadByteEngine
    noServices_spans hagree {} () 1
  exact ⟨linear, mapped, final, final', hcreate, hrun, hrun', hresult⟩

end LibA32Android

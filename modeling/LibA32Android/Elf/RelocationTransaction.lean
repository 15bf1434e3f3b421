/-
Relocation is a transaction.

* `RelocationCall`: the three calls, and `RelocationCall.prepare_pending`,
  `prepare_error` for what they do before the first write;
* `SameOff`: two memories agree outside the words at some places; a write adds a place
  and a verified restoration takes it off again, so that a rollback without a failure
  ends where the call started;
* `MappedGuestMemory.restoreWrites_granted`: on the sparse backend a restoration is
  granted by the pages that granted the write;
* `RecordedMemory`: a memory that keeps a log of the writes attempted.
-/
import LibA32Android.Elf.RelocationPrepared
import LibA32Android.Memory.Mapped

namespace LibA32Android

open Foundations QueryProgram

/-! ### The three calls -/

/-- The calls that apply relocations. -/
inductive RelocationCall where
  | rel
  | pltRel
  | combined
  deriving DecidableEq, Repr

namespace RelocationCall

/-- The call. -/
def apply {M : Type} [GuestMemory M] (call : RelocationCall) (memory : M)
    (graph : Elf32DependencyGraph) (objectIndex : ℕ) (options : Elf32RelocationOptions) :
    Elf32RelocationApplyResult × M :=
  match call with
  | .rel => applyElf32RelRelocations memory graph objectIndex options
  | .pltRel => applyElf32PltRelRelocations memory graph objectIndex options
  | .combined => applyElf32CombinedRelocations memory graph objectIndex options

/-- What the call does before the first write. -/
def prepare (call : RelocationCall) (graph : Elf32DependencyGraph) (objectIndex : ℕ)
    (options : Elf32RelocationOptions) :
    GuestRead Elf32RelocationApplyResult (List Elf32RelocationWrite) :=
  match call with
  | .rel => prepareRelocationsForTable graph objectIndex options .mainRel
  | .pltRel => prepareRelocationsForTable graph objectIndex options .pltRel
  | .combined => prepareCombinedRelocations graph objectIndex options

variable {M : Type} [GuestMemory M] {graph : Elf32DependencyGraph} {objectIndex : ℕ}
  {options : Elf32RelocationOptions} {o : ReadOracle}

lemma apply_eq (call : RelocationCall) (memory : M) : call.apply memory graph objectIndex options
    = applyPrepared memory objectIndex (call.prepare graph objectIndex options) := by
  cases call with
  | rel => rfl
  | pltRel => rfl
  | combined => rfl

end RelocationCall

/-- The check across the tables. -/
lemma checkTargets_ok {objectIndex : ℕ} {targets : List UInt32}
    {writes : List Elf32RelocationWrite} (h : checkTargets objectIndex targets writes = .ok ()) :
    ∀ write ∈ writes, write.placeGuestAddress ∉ targets := by
  induction writes generalizing targets with
  | nil => simp
  | cons write writes ih =>
      rw [checkTargets] at h
      split at h
      · cases h
      · rename_i hnew
        refine List.forall_mem_cons.mpr ⟨hnew, fun write' hmem hold => ?_⟩
        exact ih h write' hmem (List.mem_cons_of_mem _ hold)

lemma checkTargets_error {objectIndex : ℕ} {targets : List UInt32}
    {writes : List Elf32RelocationWrite} {failure : Elf32RelocationApplyResult}
    (h : checkTargets objectIndex targets writes = .error failure) :
    PreparationFailure failure := by
  induction writes generalizing targets with
  | nil => cases h
  | cons write writes ih =>
      rw [checkTargets] at h
      split at h
      · cases h
        exact ⟨.inr (.inr rfl), rfl⟩
      · exact ih h

section Prepare

variable {graph : Elf32DependencyGraph} {objectIndex : ℕ} {options : Elf32RelocationOptions}
  {o : ReadOracle}

lemma prepareCombinedRelocations_ok {pending : List Elf32RelocationWrite}
    (h : (prepareCombinedRelocations graph objectIndex options).under o = .ok pending) :
    ∃ mainPending pltPending, pending = mainPending ++ pltPending
      ∧ (prepareRelocationsForTable graph objectIndex options .mainRel).under o = .ok mainPending
      ∧ (prepareRelocationsForTable graph objectIndex options .pltRel).under o = .ok pltPending
      ∧ ∀ write ∈ pltPending,
          write.placeGuestAddress ∉ mainPending.map (·.placeGuestAddress) := by
  rw [prepareCombinedRelocations, under_bind, bind_ok_iff] at h
  obtain ⟨mainPending, hmain, h⟩ := h
  rw [under_bind, bind_ok_iff] at h
  obtain ⟨pltPending, hplt, h⟩ := h
  rw [under_bind, bind_ok_iff] at h
  obtain ⟨⟨⟩, hcheck, h⟩ := h
  cases h
  rw [under_ofExcept] at hcheck
  exact ⟨mainPending, pltPending, rfl, hmain, hplt, checkTargets_ok hcheck⟩

/-- The words of pending writes are aligned and distinct, and their original words are
those at their places. -/
structure PendingOk (o : ReadOracle) (pending : List Elf32RelocationWrite) : Prop where
  distinct : (pending.map (·.placeGuestAddress)).Nodup
  aligned : ∀ write ∈ pending, 4 ∣ write.placeGuestAddress.toNat
  original : ∀ write ∈ pending, ∃ bytes, o (write.placeGuestAddress, 4) = some bytes
    ∧ write.originalWord = decodeU32Le bytes 0

lemma prepareRelocationsForTable_pending {kind : Elf32RelocationTable}
    {pending : List Elf32RelocationWrite}
    (h : (prepareRelocationsForTable graph objectIndex options kind).under o = .ok pending) :
    PendingOk o pending := by
  obtain ⟨entries, -, hwrites, hdistinct⟩ := prepareRelocationsForTable_ok h
  refine ⟨hdistinct, fun write hmem => ?_, fun write hmem => ?_⟩
  · obtain ⟨entry, -, hwrite⟩ := exists_of_forall₂_right hwrites hmem
    exact hwrite.aligned
  · obtain ⟨entry, -, hwrite⟩ := exists_of_forall₂_right hwrites hmem
    exact hwrite.original

lemma RelocationCall.prepare_pending (call : RelocationCall) {pending : List Elf32RelocationWrite}
    (h : (call.prepare graph objectIndex options).under o = .ok pending) :
    PendingOk o pending := by
  cases call with
  | rel => exact prepareRelocationsForTable_pending h
  | pltRel => exact prepareRelocationsForTable_pending h
  | combined =>
      obtain ⟨mainPending, pltPending, rfl, hmain, hplt, hacross⟩ :=
        prepareCombinedRelocations_ok h
      have hmain := prepareRelocationsForTable_pending hmain
      have hplt := prepareRelocationsForTable_pending hplt
      refine ⟨?_, ?_, ?_⟩
      · rw [List.map_append, List.nodup_append']
        refine ⟨hmain.distinct, hplt.distinct, fun p hp hp' => ?_⟩
        obtain ⟨write, hmem, rfl⟩ := List.mem_map.mp hp'
        exact hacross write hmem hp
      · exact List.forall_mem_append.mpr ⟨hmain.aligned, hplt.aligned⟩
      · exact List.forall_mem_append.mpr ⟨hmain.original, hplt.original⟩

lemma RelocationCall.prepare_error (call : RelocationCall) {failure : Elf32RelocationApplyResult}
    (h : (call.prepare graph objectIndex options).under o = .error failure) :
    PreparationFailure failure := by
  cases call with
  | rel => exact prepareRelocationsForTable_error h
  | pltRel => exact prepareRelocationsForTable_error h
  | combined =>
      rw [prepare, prepareCombinedRelocations, under_bind, bind_error_iff] at h
      rcases h with h | ⟨mainPending, -, h⟩
      · exact prepareRelocationsForTable_error h
      rw [under_bind, bind_error_iff] at h
      rcases h with h | ⟨pltPending, -, h⟩
      · exact prepareRelocationsForTable_error h
      rw [under_bind, bind_error_iff, under_ofExcept] at h
      rcases h with h | ⟨_, -, h⟩
      · exact checkTargets_error h
      · cases h

end Prepare

/-! ### Rollback -/

/-- Two memories agree outside the words at `places`. -/
def SameOff (places : List UInt32) (before after : ℕ → UInt8) : Prop :=
  ∀ x, (∀ p ∈ places, x < p.toNat ∨ p.toNat + 4 ≤ x) → after x = before x

section Rollback

variable {M : Type} [LawfulGuestMemory M] {memory memory' : M} {places : List UInt32}
  {before : ℕ → UInt8} {p original : UInt32}

/-- A write, whether it succeeds or fails, touches the word at its place only. -/
lemma SameOff.write (h : SameOff places before (LawfulGuestMemory.bytes memory)) {value : UInt32}
    {written : Bool} (hwrite : writeWord memory p value = (written, memory')) :
    SameOff (p :: places) before (LawfulGuestMemory.bytes memory') := by
  intro x hx
  obtain ⟨hp, hplaces⟩ := List.forall_mem_cons.mp hx
  rw [← h x hplaces]
  cases written with
  | true =>
      rw [LawfulGuestMemory.write_ok hwrite]
      exact overwrite_of_outside hp
  | false => exact LawfulGuestMemory.write_failed hwrite x hp

/-- A word that was read as the original one is not changed. -/
lemma SameOff.of_readWord
    (h : SameOff (p :: places) before (LawfulGuestMemory.bytes memory))
    (horiginal : window before p.toNat 4 = encodeU32Le original)
    (hread : readWord memory p = some original) :
    SameOff places before (LawfulGuestMemory.bytes memory) := by
  obtain ⟨bytes, hbytes, hword⟩ := Option.map_eq_some_iff.mp hread
  have hbytes := LawfulGuestMemory.read_exact hbytes
  have hsame : window (LawfulGuestMemory.bytes memory) p.toNat 4 = window before p.toNat 4 := by
    rw [horiginal, ← hword, encodeU32Le_decodeU32Le (by rw [hbytes, window_length]), hbytes]
  intro x hx
  by_cases hp : x < p.toNat ∨ p.toNat + 4 ≤ x
  · exact h x (List.forall_mem_cons.mpr ⟨hp, hx⟩)
  · exact eq_of_window_eq hsame (by omega) (by omega)

/-- A restoration that was verified takes a place off the list. -/
lemma SameOff.restore
    (h : SameOff (p :: places) before (LawfulGuestMemory.bytes memory))
    (horiginal : window before p.toNat 4 = encodeU32Le original)
    (hrestore : restoreWord memory p original = (true, memory')) :
    SameOff places before (LawfulGuestMemory.bytes memory') := by
  rw [restoreWord] at hrestore
  split at hrestore
  · cases hrestore
  · rename_i written hwrite
    simp only [Prod.mk.injEq, decide_eq_true_eq] at hrestore
    obtain ⟨hread, rfl⟩ := hrestore
    refine SameOff.of_readWord (p := p) ?_ horiginal hread
    intro x hx
    refine (h.write hwrite) x ?_
    exact List.forall_mem_cons.mpr ⟨hx p List.mem_cons_self, hx⟩

/-- A failure of a rollback is not forgotten. -/
lemma restoreWrites_failed {writes : List Elf32RelocationWrite} {state : RollbackReport × M}
    (h : state.1.failed = true) : (writes.foldl restoreWrite state).1.failed = true := by
  induction writes generalizing state with
  | nil => exact h
  | cons write writes ih =>
      refine ih ?_
      rw [restoreWrite]
      split
      · exact h
      · rfl

/-- One restoration of a rollback that reports no failure. -/
lemma restoreWrite_ok {write : Elf32RelocationWrite} {state : RollbackReport × M}
    (horiginal : window before write.placeGuestAddress.toNat 4 = encodeU32Le write.originalWord)
    (h : SameOff (write.placeGuestAddress :: places) before (LawfulGuestMemory.bytes state.2))
    (hreport : (restoreWrite state write).1.failed = false) :
    SameOff places before (LawfulGuestMemory.bytes (restoreWrite state write).2) := by
  rw [restoreWrite] at hreport ⊢
  split at hreport
  · rename_i hrestore
    exact h.restore horiginal hrestore
  · cases hreport

/-- The restorations of a rollback that reports no failure. -/
lemma restoreWrites_ok {writes : List Elf32RelocationWrite} {state : RollbackReport × M}
    (horiginal : ∀ write ∈ writes,
      window before write.placeGuestAddress.toNat 4 = encodeU32Le write.originalWord)
    (h : SameOff (writes.map (·.placeGuestAddress)) before (LawfulGuestMemory.bytes state.2))
    (hreport : (writes.foldl restoreWrite state).1.failed = false) :
    LawfulGuestMemory.bytes (writes.foldl restoreWrite state).2 = before := by
  induction writes generalizing state with
  | nil =>
      funext x
      exact h x (by simp)
  | cons write writes ih =>
      obtain ⟨hword, hrest⟩ := List.forall_mem_cons.mp horiginal
      refine ih hrest (restoreWrite_ok hword h ?_) hreport
      by_contra hfailed
      rw [List.foldl_cons, restoreWrites_failed (Bool.not_eq_false _ ▸ hfailed)] at hreport
      cases hreport

/-- **A rollback that reports no failure** ends in the bytes before the call. -/
lemma rollbackWrites_ok {write : Elf32RelocationWrite} {applied : List Elf32RelocationWrite}
    (horiginal : ∀ write' ∈ write :: applied,
      window before write'.placeGuestAddress.toNat 4 = encodeU32Le write'.originalWord)
    (h : SameOff ((write :: applied).map (·.placeGuestAddress)) before
      (LawfulGuestMemory.bytes memory))
    (hreport : (rollbackWrites memory write applied).1.failed = false) :
    LawfulGuestMemory.bytes (rollbackWrites memory write applied).2 = before := by
  obtain ⟨hword, hrest⟩ := List.forall_mem_cons.mp horiginal
  by_cases hread : readWord memory write.placeGuestAddress = some write.originalWord
  · rw [rollbackWrites, if_pos hread] at hreport ⊢
    exact restoreWrites_ok hrest (h.of_readWord hword hread) hreport
  · rw [rollbackWrites, if_neg hread] at hreport ⊢
    refine restoreWrites_ok hrest (restoreWrite_ok hword h ?_) hreport
    by_contra hfailed
    rw [restoreWrites_failed (Bool.not_eq_false _ ▸ hfailed)] at hreport
    cases hreport

/-- **The write loop** with a failing write and a rollback without failure. -/
lemma applyWrites_targetWriteFailed {objectIndex : ℕ} {pending left applied :
      List Elf32RelocationWrite}
    (hleft : ∀ write ∈ left,
      window before write.placeGuestAddress.toNat 4 = encodeU32Le write.originalWord)
    (happlied : ∀ write ∈ applied,
      window before write.placeGuestAddress.toNat 4 = encodeU32Le write.originalWord)
    (h : SameOff (applied.map (·.placeGuestAddress)) before (LawfulGuestMemory.bytes memory))
    (herror : (applyWrites objectIndex pending left applied memory).1.error
      = some .targetWriteFailed) :
    LawfulGuestMemory.bytes (applyWrites objectIndex pending left applied memory).2 = before := by
  induction left generalizing applied memory with
  | nil => cases herror
  | cons write left ih =>
      obtain ⟨hword, hrest⟩ := List.forall_mem_cons.mp hleft
      rw [applyWrites] at herror ⊢
      split at herror
      · rename_i written hwrite
        exact ih hrest (List.forall_mem_cons.mpr ⟨hword, happlied⟩) (h.write hwrite) herror
      · rename_i spoilt hwrite
        change LawfulGuestMemory.bytes (rollbackWrites spoilt write applied).2 = before
        refine rollbackWrites_ok (List.forall_mem_cons.mpr ⟨hword, happlied⟩) (h.write hwrite) ?_
        by_contra hfailed
        simp [Bool.not_eq_false _ ▸ hfailed] at herror

end Rollback

/-! ### The errors of the write loop -/

section Errors

variable {M : Type} [GuestMemory M]

/-- The write loop succeeds, or it reports a failed write and publishes nothing. -/
lemma applyWrites_error (objectIndex : ℕ) (pending left applied : List Elf32RelocationWrite)
    (memory : M) :
    (applyWrites objectIndex pending left applied memory).1.error = none
    ∨ ((applyWrites objectIndex pending left applied memory).1.error = some .targetWriteFailed
        ∨ (applyWrites objectIndex pending left applied memory).1.error = some .rollbackFailed)
      ∧ (applyWrites objectIndex pending left applied memory).1.application.writes = [] := by
  induction left generalizing applied memory with
  | nil => exact .inl rfl
  | cons write left ih =>
      rw [applyWrites]
      split
      · exact ih _ _
      · rename_i spoilt _
        right
        cases hreport : (rollbackWrites spoilt write applied).1.failed with
        | false => simp [hreport]
        | true => simp [hreport]

end Errors

/-! ### The sparse backend -/

/-- Distinct aligned words do not overlap. -/
lemma words_apart {p q : UInt32} (hne : p ≠ q) (hp : 4 ∣ p.toNat) (hq : 4 ∣ q.toNat) :
    p.toNat + 4 ≤ q.toNat ∨ q.toNat + 4 ≤ p.toNat := by
  have hne' : p.toNat ≠ q.toNat := fun h => hne (UInt32.toNat_inj.mp h)
  omega

namespace MappedGuestMemory

variable {m m' m₀ : MappedGuestMemory} {p value : UInt32}

/-- The pages are those of `m₀`; only bytes may differ. -/
def SamePages (m₀ m : MappedGuestMemory) : Prop := ∃ bytes, m = m₀.withBytes bytes

lemma SamePages.validAccess (h : SamePages m₀ m) (address : UInt32) (length : ℕ)
    (required : MemoryPermission) :
    m.validAccess address length required = m₀.validAccess address length required := by
  obtain ⟨bytes, rfl⟩ := h
  rfl

lemma SamePages.withBytes (h : SamePages m₀ m) (bytes : ℕ → UInt8) :
    SamePages m₀ (m.withBytes bytes) := by
  obtain ⟨bytes', rfl⟩ := h
  exact ⟨bytes, rfl⟩

/-- A place that could be read before can be read. -/
lemma SamePages.readWord (h : SamePages m₀ m) (hread : m₀.validAccess p 4 .read = true) :
    LibA32Android.readWord m p = some (decodeU32Le (window m.reservation p.toNat 4) 0) := by
  rw [LibA32Android.readWord, read_eq_some.mpr ⟨by rw [h.validAccess]; exact hread, rfl⟩]
  rfl

/-- A place that could be read and written before can be restored. -/
lemma SamePages.restoreWord (h : SamePages m₀ m) (hread : m₀.validAccess p 4 .read = true)
    (hwrite : m₀.validAccess p 4 .write = true) (original : UInt32) :
    ∃ m', LibA32Android.restoreWord m p original = (true, m') ∧ SamePages m₀ m' := by
  let restored := m.withBytes (overwrite m.reservation p.toNat (encodeU32Le original))
  have hwritten : LibA32Android.writeWord m p original = (true, restored) :=
    if_pos (by rw [h.validAccess]; exact hwrite)
  have hword : LibA32Android.readWord restored p = some original := by
    rw [(h.withBytes _).readWord hread, withBytes_reservation]
    have hwindow : window (overwrite m.reservation p.toNat (encodeU32Le original)) p.toNat 4
        = encodeU32Le original := window_overwrite_self
    rw [hwindow, decodeU32Le_encodeU32Le]
  refine ⟨restored, ?_, h.withBytes _⟩
  rw [LibA32Android.restoreWord, hwritten]
  simp only [hword, decide_true]

/-- The pages let a write happen and be undone. -/
def AllowsUndo (m : MappedGuestMemory) (write : Elf32RelocationWrite) : Prop :=
  m.validAccess write.placeGuestAddress 4 .read = true
    ∧ m.validAccess write.placeGuestAddress 4 .write = true

/-- A rollback of granted writes does not fail. -/
lemma restoreWrites_granted {writes : List Elf32RelocationWrite}
    {state : RollbackReport × MappedGuestMemory} (h : SamePages m₀ state.2)
    (hgranted : ∀ write ∈ writes, m₀.AllowsUndo write) :
    (writes.foldl restoreWrite state).1 = state.1 := by
  induction writes generalizing state with
  | nil => rfl
  | cons write writes ih =>
      obtain ⟨⟨hread, hwrite⟩, hrest⟩ := List.forall_mem_cons.mp hgranted
      obtain ⟨restored, hrestore, hpages⟩ := h.restoreWord hread hwrite write.originalWord
      rw [List.foldl_cons, restoreWrite, hrestore]
      exact ih hpages hrest

/-- **The write loop on the sparse backend** never reports a failed rollback. -/
lemma applyWrites_ne_rollbackFailed {objectIndex : ℕ} {pending left applied :
      List Elf32RelocationWrite} (hpages : SamePages m₀ m)
    (hsame : SameOff (applied.map (·.placeGuestAddress)) m₀.reservation m.reservation)
    (happlied : ∀ write ∈ applied, m₀.AllowsUndo write
      ∧ 4 ∣ write.placeGuestAddress.toNat)
    (hleft : PendingOk (GuestMemory.reads m₀) left)
    (hfresh : ∀ write ∈ left, write.placeGuestAddress ∉ applied.map (·.placeGuestAddress)) :
    (applyWrites objectIndex pending left applied m).1.error ≠ some .rollbackFailed := by
  induction left generalizing applied m with
  | nil => simp [applyWrites]
  | cons write left ih =>
      obtain ⟨haligned, haligned'⟩ := List.forall_mem_cons.mp hleft.aligned
      obtain ⟨⟨bytes, hbytes, hword⟩, horiginal'⟩ := List.forall_mem_cons.mp hleft.original
      obtain ⟨hnew, hfresh'⟩ := List.forall_mem_cons.mp hfresh
      have hdistinct := hleft.distinct
      rw [List.map_cons, List.nodup_cons] at hdistinct
      obtain ⟨hread, rfl⟩ := read_eq_some.mp hbytes
      rw [applyWrites]
      split
      · rename_i written hwrite
        have hsame' := hsame.write hwrite
        obtain ⟨hvalid, rfl⟩ := write_eq_true hwrite
        refine ih (hpages.withBytes _) hsame' ?_ ⟨hdistinct.2, haligned', horiginal'⟩ ?_
        · rw [hpages.validAccess] at hvalid
          exact List.forall_mem_cons.mpr ⟨⟨⟨hread, hvalid⟩, haligned⟩, happlied⟩
        · intro write' hmem hold
          rcases List.mem_cons.mp hold with heq | hold
          · exact hdistinct.1 (List.mem_map.mpr ⟨write', hmem, heq⟩)
          · exact hfresh' write' hmem hold
      · rename_i same hwrite
        obtain ⟨-, rfl⟩ := write_eq_false hwrite
        -- the target still holds its word, as the writes before it went elsewhere
        have hwindow : window same.reservation write.placeGuestAddress.toNat 4
            = window m₀.reservation write.placeGuestAddress.toNat 4 := by
          refine window_congr fun x hx hlt => hsame x fun q hq => ?_
          obtain ⟨write', hmem, rfl⟩ := List.mem_map.mp hq
          have hne : write'.placeGuestAddress ≠ write.placeGuestAddress := fun h =>
            hnew (List.mem_map.mpr ⟨write', hmem, h⟩)
          have := words_apart hne (happlied write' hmem).2 haligned
          omega
        have hunchanged : readWord same write.placeGuestAddress = some write.originalWord := by
          rw [hpages.readWord hread, hwindow, hword]
        have hreport : (rollbackWrites same write applied).1.failed = false := by
          rw [rollbackWrites, if_pos hunchanged,
            restoreWrites_granted hpages fun write' hmem => (happlied write' hmem).1]
        simp [hreport]

end MappedGuestMemory

/-! ### Attempted writes -/

/-- A memory with a log of the writes attempted. -/
structure RecordedMemory (M : Type) where
  memory : M
  attempts : List (UInt32 × List UInt8) := []

namespace RecordedMemory

variable {M : Type} [GuestMemory M]

instance : GuestMemory (RecordedMemory M) where
  read r := GuestMemory.read r.memory
  write r address input :=
    ((GuestMemory.write r.memory address input).1,
      ⟨(GuestMemory.write r.memory address input).2, r.attempts ++ [(address, input)]⟩)

/-- A step on a recorded memory, without the log. -/
abbrev erase {α : Type} (step : α × RecordedMemory M) : α × M := (step.1, step.2.memory)

lemma erase_restoreWord (r : RecordedMemory M) (p original : UInt32) :
    erase (restoreWord r p original) = restoreWord r.memory p original := by
  have hwrite : erase (writeWord r p original) = writeWord r.memory p original := rfl
  rw [restoreWord, restoreWord, ← hwrite]
  rcases writeWord r p original with ⟨_ | _, r'⟩
  · rfl
  · rfl

lemma erase_restoreWrite (state : RollbackReport × RecordedMemory M)
    (write : Elf32RelocationWrite) :
    erase (restoreWrite state write) = restoreWrite (erase state) write := by
  have hrestore := erase_restoreWord state.2 write.placeGuestAddress write.originalWord
  rw [restoreWrite, restoreWrite, ← hrestore]
  rcases restoreWord state.2 write.placeGuestAddress write.originalWord with ⟨_ | _, r'⟩
  · rfl
  · rfl

lemma erase_restoreWrites (writes : List Elf32RelocationWrite)
    (state : RollbackReport × RecordedMemory M) :
    erase (writes.foldl restoreWrite state) = writes.foldl restoreWrite (erase state) := by
  induction writes generalizing state with
  | nil => rfl
  | cons write writes ih =>
      rw [List.foldl_cons, List.foldl_cons, ih, erase_restoreWrite]

lemma erase_rollbackWrites (r : RecordedMemory M) (write : Elf32RelocationWrite)
    (applied : List Elf32RelocationWrite) :
    erase (rollbackWrites r write applied) = rollbackWrites r.memory write applied := by
  have hread : readWord r write.placeGuestAddress = readWord r.memory write.placeGuestAddress :=
    rfl
  rw [rollbackWrites, rollbackWrites, hread, erase_restoreWrites]
  split
  · rfl
  · rw [erase_restoreWrite]

lemma erase_applyWrites (objectIndex : ℕ) (pending left applied : List Elf32RelocationWrite)
    (r : RecordedMemory M) : erase (applyWrites objectIndex pending left applied r)
      = applyWrites objectIndex pending left applied r.memory := by
  induction left generalizing applied r with
  | nil => rfl
  | cons write left ih =>
      have hwrite : erase (writeWord r write.placeGuestAddress write.finalWord)
        = writeWord r.memory write.placeGuestAddress write.finalWord := rfl
      rw [applyWrites, applyWrites, ← hwrite]
      rcases writeWord r write.placeGuestAddress write.finalWord with ⟨_ | _, r'⟩
      · have hrollback := erase_rollbackWrites r' write applied
        simp only [← hrollback]
      · exact ih _ r'

/-- The log does not change what a call does. -/
lemma erase_apply (call : RelocationCall) (r : RecordedMemory M) (graph : Elf32DependencyGraph)
    (objectIndex : ℕ) (options : Elf32RelocationOptions) :
    erase (call.apply r graph objectIndex options)
      = call.apply r.memory graph objectIndex options := by
  have hreads : GuestMemory.reads r = GuestMemory.reads r.memory := rfl
  rw [call.apply_eq, call.apply_eq, applyPrepared, applyPrepared, hreads]
  cases (call.prepare graph objectIndex options).under (GuestMemory.reads r.memory) with
  | error failure => rfl
  | ok pending => exact erase_applyWrites _ _ _ _ r

end RecordedMemory

/-! ### The transaction -/

section Transaction

/-- The two ways a call can go: it stops at its preparation, with the memory as it was, or
it runs the write loop on the prepared words. -/
lemma RelocationCall.apply_cases {M : Type} [GuestMemory M] (call : RelocationCall) (memory : M)
    (graph : Elf32DependencyGraph) (objectIndex : ℕ) (options : Elf32RelocationOptions) :
    (∃ failure, PreparationFailure failure
      ∧ call.apply memory graph objectIndex options = (failure, memory))
    ∨ ∃ pending, (call.prepare graph objectIndex options).under (GuestMemory.reads memory)
        = .ok pending
      ∧ PendingOk (GuestMemory.reads memory) pending
      ∧ call.apply memory graph objectIndex options
        = applyWrites objectIndex pending pending [] memory := by
  rw [call.apply_eq, applyPrepared]
  cases hprepare : (call.prepare graph objectIndex options).under (GuestMemory.reads memory) with
  | error failure => exact .inl ⟨failure, call.prepare_error hprepare, rfl⟩
  | ok pending => exact .inr ⟨pending, rfl, call.prepare_pending hprepare, rfl⟩

/-- The original words are those of the memory. -/
lemma PendingOk.window {M : Type} [LawfulGuestMemory M] {memory : M}
    {pending : List Elf32RelocationWrite} (h : PendingOk (GuestMemory.reads memory) pending) :
    ∀ write ∈ pending,
      window (LawfulGuestMemory.bytes memory) write.placeGuestAddress.toNat 4
        = encodeU32Le write.originalWord := by
  intro write hmem
  obtain ⟨bytes, hread, hword⟩ := h.original write hmem
  have hbytes := LawfulGuestMemory.read_exact hread
  rw [hword, encodeU32Le_decodeU32Le (by rw [hbytes, window_length]), hbytes]

/-- The errors of the stages before the writes. -/
def beforeWrites : List (Option Elf32RelocationApplyError) :=
  [some .resolveFailed, some .invalidRelativeSymbol, some .invalidResolvedEntry,
    some .duplicateTargetAcrossTables]

/-- **Relocation is a transaction.**  For each of the three calls:
no write is attempted when the call fails before the writes; after a failed write that
is not reported as a failed rollback all bytes are those before the call, whatever the
failing writes left in their words; a failing call publishes no writes; and on the
sparse backend, where a write is only ever denied by the pages, a rollback does not
fail. -/
theorem relocation_transactional (call : RelocationCall) (graph : Elf32DependencyGraph)
    (objectIndex : ℕ) (options : Elf32RelocationOptions) :
    (∀ {M : Type} [GuestMemory M] (memory : M),
      let recorded := call.apply (RecordedMemory.mk memory []) graph objectIndex options
      let plain := call.apply memory graph objectIndex options
      recorded.1 = plain.1 ∧ recorded.2.memory = plain.2
      ∧ (plain.1.error ∈ beforeWrites → recorded.2.attempts = [])
      ∧ (plain.1.error ≠ none → plain.1.application.writes = []))
    ∧ (∀ {M : Type} [LawfulGuestMemory M] (memory : M),
      (call.apply memory graph objectIndex options).1.error = some .targetWriteFailed →
        LawfulGuestMemory.bytes (call.apply memory graph objectIndex options).2
          = LawfulGuestMemory.bytes memory)
    ∧ ∀ memory : MappedGuestMemory,
      (call.apply memory graph objectIndex options).1.error ≠ some .rollbackFailed := by
  refine ⟨fun {M} _ memory => ?_, fun {M} _ memory herror => ?_, fun memory => ?_⟩
  · have herase := RecordedMemory.erase_apply call (RecordedMemory.mk memory []) graph
      objectIndex options
    have hresult : (call.apply (RecordedMemory.mk memory []) graph objectIndex options).1
        = (call.apply memory graph objectIndex options).1 := congrArg Prod.fst herase
    refine ⟨hresult, congrArg Prod.snd herase, fun herror => ?_, fun herror => ?_⟩
    · rw [← hresult] at herror
      rcases call.apply_cases (RecordedMemory.mk memory []) graph objectIndex options with
        ⟨failure, -, happly⟩ | ⟨pending, -, -, happly⟩
      · rw [happly]
      · -- the write loop has other errors
        rw [happly] at herror
        rcases applyWrites_error objectIndex pending pending [] (RecordedMemory.mk memory []) with
          hnone | ⟨htarget | hrollback, -⟩
        · simp [hnone, beforeWrites] at herror
        · simp [htarget, beforeWrites] at herror
        · simp [hrollback, beforeWrites] at herror
    · rcases call.apply_cases memory graph objectIndex options with
        ⟨failure, hfailure, happly⟩ | ⟨pending, -, -, happly⟩
      · rw [happly]
        exact hfailure.2
      · rw [happly] at herror ⊢
        exact ((applyWrites_error _ _ _ _ memory).resolve_left herror).2
  · rcases call.apply_cases memory graph objectIndex options with
      ⟨failure, hfailure, happly⟩ | ⟨pending, -, hok, happly⟩
    · rw [happly]
    · rw [happly] at herror ⊢
      exact applyWrites_targetWriteFailed hok.window (by simp) (fun _ _ => rfl) herror
  · rcases call.apply_cases memory graph objectIndex options with
      ⟨failure, hfailure, happly⟩ | ⟨pending, -, hok, happly⟩
    · rw [happly]
      rcases hfailure.1 with h | h | h <;> simp [h]
    · rw [happly]
      exact MappedGuestMemory.applyWrites_ne_rollbackFailed ⟨memory.reservation, rfl⟩
        (fun _ _ => rfl) (by simp) hok (by simp)

/-- Two `RELATIVE` relocations, the second one for a word in a read-only page. -/
def readOnlyTarget : MappedGuestMemory :=
  let table := encodeU32Le 0x1100 ++ encodeU32Le 23 ++ encodeU32Le 0x2000 ++ encodeU32Le 23
  let memory := MappedGuestMemory.create 4096 (fun _ _ => true) MappedGuestMemory.fourKiB_dvd
  let memory := (memory.map 0x1000 4096 (.read ||| .write)).2
  (GuestMemory.write (memory.map 0x2000 4096 .read).2 0x1000 table).2

def twoRelocations : Elf32DependencyGraph where
  objects := [
    { identity := [97], load := { loadBias := 0 }
      linkerMetadata := { relTable := some ⟨0x1000, 16, 8⟩ } }]

def relocationLimits : Elf32RelocationOptions where
  maxRelocations := 16
  symbols :=
    { maxSymbols := 16, maxHashBuckets := 16, maxGnuBloomWords := 16, maxScopeObjects := 16
      maxNameBytes := 16, maxVersionRecords := 16 }

/-- The first word is written, the second write is denied and the first word is
restored. -/
theorem relocation_transactional_readOnly :
    let plain := RelocationCall.rel.apply readOnlyTarget twoRelocations 0 relocationLimits
    let recorded := RelocationCall.rel.apply (RecordedMemory.mk readOnlyTarget [])
      twoRelocations 0 relocationLimits
    plain.1.error = some .targetWriteFailed
      ∧ recorded.2.attempts.map Prod.fst = [0x1100, 0x2000, 0x1100]
      ∧ plain.1.application.writes = []
      ∧ LawfulGuestMemory.bytes plain.2 = LawfulGuestMemory.bytes readOnlyTarget := by
  intro plain recorded
  have herror : plain.1.error = some .targetWriteFailed := by decide +kernel
  obtain ⟨hplain, hlawful, -⟩ :=
    relocation_transactional .rel twoRelocations 0 relocationLimits
  refine ⟨herror, by decide +kernel, (hplain readOnlyTarget).2.2.2 ?_,
    hlawful readOnlyTarget herror⟩
  simp [plain, herror]

end Transaction

end LibA32Android

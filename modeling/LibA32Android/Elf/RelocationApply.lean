/-
Applying relocations (`elf/elf32_relocation.h` and the second part of
`elf/linking/elf32_relocation.cpp`).

* `prepareRelocationsForTable`: the words to be written;
* `applyPendingRelocations`: the writes, rolled back in reverse after one that
  fails;
* `applyElf32RelRelocations`, `applyElf32PltRelRelocations`,
  `applyElf32CombinedRelocations`: the three calls.

Everything before the first write only reads, so it is a program over the reads of
the memory at the time of the call.
-/
import LibA32Android.Elf.Relocation

namespace LibA32Android

open Foundations QueryProgram

/-- `Elf32RelocationWrite`. -/
structure Elf32RelocationWrite where
  relocationIndex : UInt32
  type : UInt8
  placeGuestAddress : UInt32
  originalWord : UInt32
  finalWord : UInt32
  table : Elf32RelocationTable
  deriving DecidableEq, Repr

/-- `Elf32RelocationApplication`. -/
structure Elf32RelocationApplication where
  objectIndex : ℕ
  writes : List Elf32RelocationWrite := []
  deriving DecidableEq, Repr

/-- `Elf32RelocationApplyError`, without `None`. -/
inductive Elf32RelocationApplyError where
  | resolveFailed
  | invalidRelativeSymbol
  | invalidResolvedEntry
  | duplicateTargetAcrossTables
  | targetWriteFailed
  | rollbackFailed
  deriving DecidableEq, Repr

/-- `Elf32RelocationApplyResult`; `none` is the error `None`. -/
structure Elf32RelocationApplyResult where
  error : Option Elf32RelocationApplyError := none
  primaryError : Option Elf32RelocationApplyError := none
  resolutionFailure : Option Elf32RelocationResolutionFailure := none
  failingRelocation : Option UInt32 := none
  rollbackFailingRelocation : Option UInt32 := none
  failingTable : Option Elf32RelocationTable := none
  rollbackFailingTable : Option Elf32RelocationTable := none
  application : Elf32RelocationApplication
  deriving DecidableEq, Repr

/-- `apply_failure`. -/
def applyFailure (error : Elf32RelocationApplyError) (objectIndex : ℕ)
    (failingRelocation : Option UInt32) (failingTable : Elf32RelocationTable) :
    Elf32RelocationApplyResult where
  error := some error
  primaryError := some error
  failingRelocation := failingRelocation
  failingTable := some failingTable
  application := { objectIndex }

/-! ### Preparation -/

/-- The word of a `R_ARM_REL32` entry: the Thumb bit is taken off the symbol value and
put back behind the sum. -/
def rel32Word (reference : Elf32RelocationReference) (originalWord place : UInt32) : UInt32 :=
  if !reference.unresolvedWeak
      ∧ ∃ symbol ∈ reference.definingSymbol, symbol.type = 2 ∧ symbol.value &&& 1 ≠ 0 then
    (((reference.symbolValue &&& ~~~1) + originalWord) ||| 1) - place
  else ((reference.symbolValue + originalWord) ||| 0) - place

/-- The `switch` of the preparation loop. -/
def finalWordOf (loadBias : UInt32) (objectIndex : ℕ) (kind : Elf32RelocationTable)
    (resolved : Elf32ResolvedRelocationEntry) (originalWord : UInt32) :
    Except Elf32RelocationApplyResult UInt32 :=
  let entry := resolved.relocation
  let invalid : Elf32RelocationApplyResult :=
    applyFailure .invalidResolvedEntry objectIndex (some entry.index) kind
  if entry.type = rArmRelative then
    if entry.symbolIndex ≠ 0 then
      .error (applyFailure .invalidRelativeSymbol objectIndex (some entry.index) kind)
    else .ok (loadBias + originalWord)
  else if entry.type = rArmGlobDat ∨ entry.type = rArmJumpSlot then
    match resolved.reference with
    | none => .error invalid
    | some reference => .ok reference.symbolValue
  else if entry.type = rArmAbs32 then
    match resolved.reference with
    | none => .error invalid
    | some reference => .ok (reference.symbolValue + originalWord)
  else if entry.type = rArmRel32 then
    match resolved.reference with
    | none => .error invalid
    | some reference => .ok (rel32Word reference originalWord entry.placeGuestAddress)
  else .error invalid

/-- One round of the preparation loop, for an entry that writes. -/
def prepareEntry (loadBias : UInt32) (objectIndex : ℕ) (kind : Elf32RelocationTable)
    (resolved : Elf32ResolvedRelocationEntry) :
    Except Elf32RelocationApplyResult Elf32RelocationWrite :=
  let entry := resolved.relocation
  match entry.originalWord with
  | none => .error (applyFailure .invalidResolvedEntry objectIndex (some entry.index) kind)
  | some originalWord => do
    let finalWord ← finalWordOf loadBias objectIndex kind resolved originalWord
    return { relocationIndex := entry.index, type := entry.type
             placeGuestAddress := entry.placeGuestAddress, originalWord, finalWord, table := kind }

/-- `prepare_relocations_for_table`: the pending writes. -/
def prepareRelocationsForTable (graph : Elf32DependencyGraph) (objectIndex : ℕ)
    (options : Elf32RelocationOptions) (kind : Elf32RelocationTable) :
    GuestRead Elf32RelocationApplyResult (List Elf32RelocationWrite) := do
  let resolution ← (resolveRelocationReferencesForTable graph objectIndex options
    kind).mapError fun failure =>
      { applyFailure .resolveFailed objectIndex failure.failingRelocation kind with
        resolutionFailure := some failure }
  reject (objectIndex ≥ graph.objects.length)
    (applyFailure .invalidResolvedEntry objectIndex none kind)
  let loadBias := (graph.objects.getD objectIndex default).load.loadBias
  let writing := resolution.entries.filter fun resolved => resolved.relocation.type ≠ rArmNone
  ofExcept (writing.mapM (prepareEntry loadBias objectIndex kind))

/-- The check for a place that both tables write; `targets` are the places so far. -/
def checkTargets (objectIndex : ℕ) :
    List UInt32 → List Elf32RelocationWrite → Except Elf32RelocationApplyResult Unit
  | _, [] => .ok ()
  | targets, write :: writes =>
    if write.placeGuestAddress ∈ targets then
      .error (applyFailure .duplicateTargetAcrossTables objectIndex (some write.relocationIndex)
        .pltRel)
    else checkTargets objectIndex (write.placeGuestAddress :: targets) writes

/-- The part of `apply_elf32_combined_relocations` before the writes. -/
def prepareCombinedRelocations (graph : Elf32DependencyGraph) (objectIndex : ℕ)
    (options : Elf32RelocationOptions) :
    GuestRead Elf32RelocationApplyResult (List Elf32RelocationWrite) := do
  let mainPending ← prepareRelocationsForTable graph objectIndex options .mainRel
  let pltPending ← prepareRelocationsForTable graph objectIndex options .pltRel
  ofExcept (checkTargets objectIndex (mainPending.map (·.placeGuestAddress)) pltPending)
  return mainPending ++ pltPending

/-! ### Writes -/

section Writes

variable {M : Type} [GuestMemory M]

/-- `write_word`. -/
def writeWord (memory : M) (address value : UInt32) : Bool × M :=
  GuestMemory.write memory address (encodeU32Le value)

/-- `read_word`. -/
def readWord (memory : M) (address : UInt32) : Option UInt32 :=
  (GuestMemory.read memory address 4).map (decodeU32Le · 0)

/-- `restore_word`. -/
def restoreWord (memory : M) (address original : UInt32) : Bool × M :=
  match writeWord memory address original with
  | (false, memory) => (false, memory)
  | (true, memory) => (readWord memory address = some original, memory)

/-- The locals of a rollback: `rollback_failed`, `rollback_failure` and
`rollback_failure_table`. -/
structure RollbackReport where
  failed : Bool := false
  failure : Option UInt32 := none
  table : Option Elf32RelocationTable := none
  deriving DecidableEq, Repr

/-- Note a restoration that could not be established; the first one is reported. -/
def RollbackReport.note (report : RollbackReport) (write : Elf32RelocationWrite) :
    RollbackReport where
  failed := true
  failure := if report.failure.isSome then report.failure else some write.relocationIndex
  table := if report.failure.isSome then report.table else some write.table

/-- Restore the word of one write. -/
def restoreWrite (state : RollbackReport × M) (write : Elf32RelocationWrite) :
    RollbackReport × M :=
  match restoreWord state.2 write.placeGuestAddress write.originalWord with
  | (true, memory) => (state.1, memory)
  | (false, memory) => (state.1.note write, memory)

/-- The rollback after a failed write: the target of that write, unless it still holds
its word, and then the writes applied before it, last one first. -/
def rollbackWrites (memory : M) (write : Elf32RelocationWrite)
    (applied : List Elf32RelocationWrite) : RollbackReport × M :=
  let state :=
    if readWord memory write.placeGuestAddress = some write.originalWord then ({}, memory)
    else restoreWrite ({}, memory) write
  applied.foldl restoreWrite state

/-- The write loop over the writes left; `applied` is in reverse order. -/
def applyWrites (objectIndex : ℕ) (pending : List Elf32RelocationWrite) :
    List Elf32RelocationWrite → List Elf32RelocationWrite → M → Elf32RelocationApplyResult × M
  | [], _, memory => ({ application := { objectIndex, writes := pending } }, memory)
  | write :: left, applied, memory =>
    match writeWord memory write.placeGuestAddress write.finalWord with
    | (true, memory) => applyWrites objectIndex pending left (write :: applied) memory
    | (false, memory) =>
      let (report, memory) := rollbackWrites memory write applied
      ({ error := some (if report.failed then .rollbackFailed else .targetWriteFailed)
         primaryError := some .targetWriteFailed
         failingRelocation := some write.relocationIndex
         failingTable := some write.table
         rollbackFailingRelocation := report.failure
         rollbackFailingTable := report.table
         application := { objectIndex } }, memory)

/-- `apply_pending_relocations`. -/
def applyPendingRelocations (memory : M) (objectIndex : ℕ)
    (pending : List Elf32RelocationWrite) : Elf32RelocationApplyResult × M :=
  applyWrites objectIndex pending pending [] memory

/-- Prepare, and write unless that failed. -/
def applyPrepared (memory : M) (objectIndex : ℕ)
    (prepare : GuestRead Elf32RelocationApplyResult (List Elf32RelocationWrite)) :
    Elf32RelocationApplyResult × M :=
  match prepare.under (GuestMemory.reads memory) with
  | .error failure => (failure, memory)
  | .ok pending => applyPendingRelocations memory objectIndex pending

/-- `apply_elf32_rel_relocations`. -/
def applyElf32RelRelocations (memory : M) (graph : Elf32DependencyGraph) (objectIndex : ℕ)
    (options : Elf32RelocationOptions) : Elf32RelocationApplyResult × M :=
  applyPrepared memory objectIndex (prepareRelocationsForTable graph objectIndex options .mainRel)

/-- `apply_elf32_plt_rel_relocations`. -/
def applyElf32PltRelRelocations (memory : M) (graph : Elf32DependencyGraph) (objectIndex : ℕ)
    (options : Elf32RelocationOptions) : Elf32RelocationApplyResult × M :=
  applyPrepared memory objectIndex (prepareRelocationsForTable graph objectIndex options .pltRel)

/-- `apply_elf32_combined_relocations`. -/
def applyElf32CombinedRelocations (memory : M) (graph : Elf32DependencyGraph) (objectIndex : ℕ)
    (options : Elf32RelocationOptions) : Elf32RelocationApplyResult × M :=
  applyPrepared memory objectIndex (prepareCombinedRelocations graph objectIndex options)

end Writes

end LibA32Android

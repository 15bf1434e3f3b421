/-
What a successful relocation writes.

* `tableRecords`: the entries of a table as the bytes of a memory give them, and
  `RelocationCall.records` for those that a call handles;
* `RelocationCall.prepare_records`: one pending write for each of them that writes, its
  word determined by the memory before the call;
* `applyWrites_ok`: what the write loop leaves.
-/
import LibA32Android.Elf.RelocationTransaction

namespace LibA32Android

open Foundations QueryProgram

/-! ### The entries of a call -/

/-- The entries of a table of an object. -/
def tableRecords (bytes : ℕ → UInt8) (metadata : Elf32LinkerMetadata)
    (kind : Elf32RelocationTable) : List Elf32RelocationEntry :=
  match selectedTable metadata kind with
  | none => []
  | some table => (List.range (table.size.toNat / 8)).map fun i =>
      decodeRelocation i (window bytes (table.guestAddress.toNat + i * 8) 8)

namespace RelocationCall

/-- The tables of a call, in the order of their writes. -/
def tables : RelocationCall → List Elf32RelocationTable
  | .rel => [.mainRel]
  | .pltRel => [.pltRel]
  | .combined => [.mainRel, .pltRel]

/-- The entries of the tables of a call that are not `R_ARM_NONE`. -/
def records (call : RelocationCall) (bytes : ℕ → UInt8) (metadata : Elf32LinkerMetadata) :
    List (Elf32RelocationTable × Elf32RelocationEntry) :=
  call.tables.flatMap fun kind =>
    ((tableRecords bytes metadata kind).filter fun entry => entry.type ≠ rArmNone).map (kind, ·)

end RelocationCall

/-- An entry of the plan for a table entry: the place and the word there are filled in. -/
def PlannedFrom (record entry : Elf32RelocationEntry) : Prop :=
  ∃ place original,
    entry = { record with placeGuestAddress := place, originalWord := original }

section Records

variable {M : Type} [LawfulGuestMemory M] {memory : M} {graph : Elf32DependencyGraph}
  {objectIndex : ℕ} {options : Elf32RelocationOptions} {kind : Elf32RelocationTable}

lemma WriteOf.of_plannedFrom {o : ReadOracle} {record entry : Elf32RelocationEntry}
    {write : Elf32RelocationWrite} (h : PlannedFrom record entry)
    (hwrite : WriteOf o graph objectIndex options kind entry write) :
    WriteOf o graph objectIndex options kind record write := by
  obtain ⟨place, original, rfl⟩ := h
  exact ⟨hwrite.index, hwrite.type, hwrite.table, hwrite.place, hwrite.aligned, hwrite.original,
    hwrite.final⟩

/-- The plan is made from the bytes of the table. -/
lemma Planned.plannedFrom {loadBias : UInt32} {table : Elf32RelTableMetadata} {i : ℕ}
    {entry : Elf32RelocationEntry}
    (h : Planned (GuestMemory.reads memory) loadBias table kind i entry) :
    PlannedFrom (decodeRelocation i
      (window (LawfulGuestMemory.bytes memory) (table.guestAddress.toNat + i * 8) 8)) entry := by
  obtain ⟨address, bytes, haddress, hread, hentry⟩ := h.decoded
  have hbytes := LawfulGuestMemory.read_exact hread
  rw [hbytes, haddress] at hentry
  exact ⟨_, _, hentry⟩

lemma prepareRelocationsForTable_records {pending : List Elf32RelocationWrite}
    (h : (prepareRelocationsForTable graph objectIndex options kind).under
      (GuestMemory.reads memory) = .ok pending) :
    List.Forall₂ (WriteOf (GuestMemory.reads memory) graph objectIndex options kind)
      ((tableRecords (LawfulGuestMemory.bytes memory)
        (relocatedObject graph objectIndex).linkerMetadata kind).filter fun entry =>
          entry.type ≠ rArmNone) pending := by
  obtain ⟨entries, hplanned, hwrites, -⟩ := prepareRelocationsForTable_ok h
  have hrecords : List.Forall₂ PlannedFrom (tableRecords (LawfulGuestMemory.bytes memory)
      (relocatedObject graph objectIndex).linkerMetadata kind) entries := by
    rw [relocationCount] at hplanned
    rw [tableRecords]
    cases htable : selectedTable (relocatedObject graph objectIndex).linkerMetadata kind with
    | none =>
        simp only [htable] at hplanned
        cases hplanned
        exact .nil
    | some table =>
        simp only [htable] at hplanned ⊢
        rw [List.forall₂_map_left_iff]
        refine hplanned.imp fun i entry hentry => ?_
        obtain ⟨table', htable', hentry⟩ := hentry
        cases htable'
        exact hentry.plannedFrom
  have hfiltered := List.rel_filter (p := fun entry => entry.type ≠ rArmNone)
    (q := fun entry => entry.type ≠ rArmNone) (R := PlannedFrom)
    (by rintro record entry ⟨place, original, rfl⟩; exact Iff.rfl) hrecords
  refine (forall₂_comp hfiltered hwrites).imp ?_
  rintro record write ⟨entry, hfrom, hwrite⟩
  exact hwrite.of_plannedFrom hfrom

/-- **The pending writes of a call**: one for each entry of its tables that writes. -/
lemma RelocationCall.prepare_records (call : RelocationCall) {pending : List Elf32RelocationWrite}
    (h : (call.prepare graph objectIndex options).under (GuestMemory.reads memory)
      = .ok pending) :
    List.Forall₂ (fun record write => WriteOf (GuestMemory.reads memory) graph objectIndex options
        record.1 record.2 write)
      (call.records (LawfulGuestMemory.bytes memory)
        (relocatedObject graph objectIndex).linkerMetadata) pending := by
  cases call with
  | rel =>
      simp only [records, tables, List.flatMap_singleton, List.forall₂_map_left_iff]
      exact prepareRelocationsForTable_records h
  | pltRel =>
      simp only [records, tables, List.flatMap_singleton, List.forall₂_map_left_iff]
      exact prepareRelocationsForTable_records h
  | combined =>
      obtain ⟨mainPending, pltPending, rfl, hmain, hplt, -⟩ := prepareCombinedRelocations_ok h
      simp only [records, tables, List.flatMap_cons, List.flatMap_nil, List.append_nil]
      refine List.rel_append ?_ ?_
      · rw [List.forall₂_map_left_iff]
        exact prepareRelocationsForTable_records hmain
      · rw [List.forall₂_map_left_iff]
        exact prepareRelocationsForTable_records hplt

end Records

/-! ### The writes -/

/-- The bytes that a write puts, with their place. -/
def Elf32RelocationWrite.bytes (write : Elf32RelocationWrite) : ℕ × List UInt8 :=
  (write.placeGuestAddress.toNat, encodeU32Le write.finalWord)

section Writes

variable {M : Type} [LawfulGuestMemory M] {memory : M}

/-- **The write loop** when no write fails. -/
lemma applyWrites_ok {objectIndex : ℕ} {pending left applied : List Elf32RelocationWrite}
    (h : (applyWrites objectIndex pending left applied memory).1.error = none) :
    (applyWrites objectIndex pending left applied memory).1.application.writes = pending
      ∧ LawfulGuestMemory.bytes (applyWrites objectIndex pending left applied memory).2
        = overwriteAll (LawfulGuestMemory.bytes memory) (left.map (·.bytes)) := by
  induction left generalizing applied memory with
  | nil => exact ⟨rfl, rfl⟩
  | cons write left ih =>
      rw [applyWrites] at h ⊢
      split at h
      · rename_i written hwrite
        obtain ⟨hwrites, hbytes⟩ := ih h
        refine ⟨hwrites, ?_⟩
        rw [hbytes, LawfulGuestMemory.write_ok hwrite]
        rfl
      · cases h

/-- The words of pending writes do not meet. -/
lemma PendingOk.apart {o : ReadOracle} {pending : List Elf32RelocationWrite}
    (h : PendingOk o pending) : (pending.map (·.bytes)).Pairwise Apart := by
  rw [List.pairwise_map]
  have hne : pending.Pairwise fun write write' =>
      write.placeGuestAddress ≠ write'.placeGuestAddress := List.pairwise_map.mp h.distinct
  refine hne.imp_of_mem fun {write write'} hmem hmem' hplaces => ?_
  exact words_apart hplaces (h.aligned write hmem) (h.aligned write' hmem')

/-- **What a successful relocation writes.**  For each of the three calls: the writes
are, in order, those of the entries of the tables that are not `R_ARM_NONE`; their
places are distinct, each holds its word afterwards, and no other byte changes.  All
words come from the memory before the call (`WriteOf`).  No call reports an invalid
entry. -/
theorem relocation_writes (call : RelocationCall) (graph : Elf32DependencyGraph)
    (objectIndex : ℕ) (options : Elf32RelocationOptions) :
    (∀ {M : Type} [GuestMemory M] (memory : M),
      (call.apply memory graph objectIndex options).1.error ≠ some .invalidResolvedEntry)
    ∧ ∀ {M : Type} [LawfulGuestMemory M] (memory : M),
      let result := (call.apply memory graph objectIndex options).1
      let after := LawfulGuestMemory.bytes (call.apply memory graph objectIndex options).2
      let before := LawfulGuestMemory.bytes memory
      result.error = none →
        List.Forall₂ (fun record write => WriteOf (GuestMemory.reads memory) graph objectIndex
            options record.1 record.2 write)
          (call.records before (relocatedObject graph objectIndex).linkerMetadata)
          result.application.writes
        ∧ (result.application.writes.map (·.placeGuestAddress)).Nodup
        ∧ (∀ write ∈ result.application.writes,
            write.originalWord = decodeU32Le (window before write.placeGuestAddress.toNat 4) 0
            ∧ window after write.placeGuestAddress.toNat 4 = encodeU32Le write.finalWord)
        ∧ ∀ x, (∀ write ∈ result.application.writes,
            x < write.placeGuestAddress.toNat ∨ write.placeGuestAddress.toNat + 4 ≤ x) →
          after x = before x := by
  refine ⟨fun {M} _ memory => ?_, fun {M} _ memory => ?_⟩
  · rcases call.apply_cases memory graph objectIndex options with
      ⟨failure, hfailure, happly⟩ | ⟨pending, -, -, happly⟩
    · rw [happly]
      rcases hfailure.1 with h | h | h <;> simp [h]
    · rw [happly]
      rcases applyWrites_error objectIndex pending pending [] memory with h | ⟨h | h, -⟩
      · simp [h]
      · simp [h]
      · simp [h]
  · intro result after before hok
    rcases call.apply_cases memory graph objectIndex options with
      ⟨failure, hfailure, happly⟩ | ⟨pending, hprepare, hpending, happly⟩
    · have hresult : result = failure := congrArg Prod.fst happly
      rw [hresult] at hok
      rcases hfailure.1 with h | h | h <;> simp [h] at hok
    have hloop : (applyWrites objectIndex pending pending [] memory).1.error = none := by
      rw [← happly]
      exact hok
    obtain ⟨hwrites, hbytes⟩ := applyWrites_ok hloop
    rw [← happly] at hwrites hbytes
    change result.application.writes = pending at hwrites
    change after = overwriteAll before (pending.map (·.bytes)) at hbytes
    rw [hwrites, hbytes]
    refine ⟨call.prepare_records hprepare, hpending.distinct, fun write hmem => ⟨?_, ?_⟩,
      fun x hx => ?_⟩
    · rw [hpending.window write hmem, decodeU32Le_encodeU32Le]
    · have hword : window (overwrite before write.placeGuestAddress.toNat
          (encodeU32Le write.finalWord)) write.placeGuestAddress.toNat 4
          = encodeU32Le write.finalWord := window_overwrite_self
      rw [← hword]
      refine window_congr fun x hx hlt => ?_
      exact overwriteAll_of_mem (w := write.bytes) hpending.apart
        (List.mem_map.mpr ⟨write, hmem, rfl⟩) hx hlt
    · refine overwriteAll_of_outside fun w hw => ?_
      obtain ⟨write, hmem, rfl⟩ := List.mem_map.mp hw
      exact hx write hmem

/-- A memory with a symbol table of one odd function `f`, a table with a `NONE`, a
`RELATIVE` and a `REL32` entry and one with a `JUMP_SLOT` entry. -/
def relocatableMemory : MappedGuestMemory :=
  let memory := MappedGuestMemory.create 4096 (fun _ _ => true) MappedGuestMemory.fourKiB_dvd
  (GuestMemory.write (memory.map 0x1000 4096 (.read ||| .write)).2 0x1000
    ([0, 102, 0, 0] ++ List.replicate 16 0
      ++ [1, 0, 0, 0, 0x11, 0, 0, 0, 4, 0, 0, 0, 0x12, 0, 1, 0]
      ++ encodeU32Le 1 ++ encodeU32Le 2 ++ encodeU32Le 1 ++ encodeU32Le 0 ++ encodeU32Le 0
      ++ encodeU32Le 0x100 ++ encodeU32Le 0 ++ encodeU32Le 0x104 ++ encodeU32Le 23
      ++ encodeU32Le 0x108 ++ encodeU32Le 0x103 ++ encodeU32Le 0x10c ++ encodeU32Le 0x116)).2

def relocatableGraph : Elf32DependencyGraph where
  objects := [
    { identity := [97], load := { loadBias := 0x1000 }
      linkerMetadata :=
        { stringTable := some ⟨0x1000, 3⟩, symbolTable := some ⟨0x1004, 16⟩
          sysvHashTable := some ⟨0x1024⟩, relTable := some ⟨0x1038, 24, 8⟩
          pltRelTable := some ⟨0x1050, 8, 8⟩ } }]

theorem relocation_writes_combined :
    let call := RelocationCall.combined.apply relocatableMemory relocatableGraph 0 relocationLimits
    call.1.error = none
      ∧ call.1.application.writes.map (fun write => (write.placeGuestAddress, write.finalWord))
        = [(0x1104, 0x1000), (0x1108, 0x1011 - 0x1108), (0x110c, 0x1011)]
      ∧ ∀ write ∈ call.1.application.writes,
        window (LawfulGuestMemory.bytes call.2) write.placeGuestAddress.toNat 4
          = encodeU32Le write.finalWord := by
  intro call
  have hok : call.1.error = none := by decide +kernel
  have hwrites := (relocation_writes .combined relocatableGraph 0 relocationLimits).2
    relocatableMemory hok
  exact ⟨hok, by decide +kernel, fun write hmem => (hwrites.2.2.1 write hmem).2⟩

end Writes

end LibA32Android

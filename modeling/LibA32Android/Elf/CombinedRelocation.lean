/-
Combined relocation against the two tables one after the other.

The combined call prepares the PLT table before the main table is written, the two
calls prepare it afterwards.  The preparation is a program over the reads of the
memory, so the two agree as soon as the main table spares the bytes that it reads.

* `tablePlaces`: the places of a table, as its bytes give them;
* `writeAll`: the writes of a successful call;
* `PltReadsSpared`: no main place meets a byte read for the PLT table, its own places
  apart;
* `combined_agrees`: under this condition the combined call succeeds exactly when the
  two calls do and the tables share no place, with the same memory and writes.
-/
import LibA32Android.Elf.RelocationEffect

namespace LibA32Android

open Foundations QueryProgram

/-! ### Places -/

/-- The places of the entries of a table that write, from the bytes of the table. -/
def tablePlaces (bytes : ℕ → UInt8) (object : Elf32LoadedDependencyObject)
    (kind : Elf32RelocationTable) : List ℕ :=
  ((tableRecords bytes object.linkerMetadata kind).filter fun entry =>
    entry.type ≠ rArmNone).map fun entry => object.load.loadBias.toNat + entry.offset.toNat

section Places

variable {m : MappedGuestMemory} {graph : Elf32DependencyGraph} {objectIndex : ℕ}
  {options : Elf32RelocationOptions} {kind : Elf32RelocationTable}

/-- The pending writes go to the places of the table. -/
lemma prepareRelocationsForTable_places {pending : List Elf32RelocationWrite}
    (h : (prepareRelocationsForTable graph objectIndex options kind).under
      (GuestMemory.reads m) = .ok pending) :
    pending.map (·.placeGuestAddress.toNat)
      = tablePlaces m.reservation (relocatedObject graph objectIndex) kind := by
  have hwrites := prepareRelocationsForTable_records h
  rw [tablePlaces, ← List.forall₂_eq_eq_eq, List.forall₂_map_left_iff, List.forall₂_map_right_iff]
  exact (hwrites.imp fun entry write hwrite => hwrite.place).flip

/-- The places of a table that is planned are aligned. -/
lemma aligned_of_plan {plan : Elf32RelocationPlan}
    (h : (buildRelocationPlanForTable graph objectIndex options kind).under
      (GuestMemory.reads m) = .ok plan) :
    ∀ p ∈ tablePlaces m.reservation (relocatedObject graph objectIndex) kind,
      4 ∣ p := by
  intro p hp
  obtain ⟨record, hrecord, rfl⟩ := List.mem_map.mp hp
  obtain ⟨hmem, htype⟩ := List.mem_filter.mp hrecord
  obtain ⟨-, hplanned, -⟩ := buildRelocationPlanForTable_ok h
  rw [tableRecords] at hmem
  cases htable : selectedTable (relocatedObject graph objectIndex).linkerMetadata kind with
  | none =>
      rw [htable] at hmem
      exact absurd hmem List.not_mem_nil
  | some table =>
      rw [htable] at hmem
      obtain ⟨i, hi, rfl⟩ := List.mem_map.mp hmem
      rw [relocationCount, htable] at hplanned
      obtain ⟨entry, -, table', htable', hentry⟩ := exists_of_forall₂_right hplanned.flip hi
      cases htable'
      obtain ⟨place, original, hfrom⟩ := hentry.plannedFrom
      have hbytes : LawfulGuestMemory.bytes m = m.reservation := rfl
      rw [hbytes] at hfrom
      have hplace := hentry.place
      have hwrites : entry.type ≠ rArmNone := by
        rw [hfrom]
        simpa using htype
      have hoffset : entry.offset = (decodeRelocation i (window m.reservation
          (table.guestAddress.toNat + i * 8) 8)).offset := by rw [hfrom]
      rw [← hoffset, ← hplace]
      exact (hentry.target hwrites).1

end Places

/-! ### The questions of the plan -/

section Asked

variable {o : ReadOracle} {graph : Elf32DependencyGraph} {objectIndex : ℕ}
  {options : Elf32RelocationOptions} {kind : Elf32RelocationTable} {q : UInt32 × ℕ}

/-- The plan reads entries of eight bytes and aligned words. -/
def PlanQuestion (q : UInt32 × ℕ) : Prop := q.2 = 8 ∨ 4 ∣ q.1.toNat

lemma asked_readRelocationBytes {table : Elf32RelTableMetadata} {i : ℕ}
    (h : q ∈ (readRelocationBytes table i).asked o) : PlanQuestion q := by
  rw [readRelocationBytes] at h
  split at h
  · exact absurd h List.not_mem_nil
  · rcases mem_asked_bind o |>.mp h with h | ⟨bytes, -, h⟩
    · rw [List.mem_singleton.mp h]
      exact Or.inl rfl
    · cases bytes with
      | none => exact absurd h List.not_mem_nil
      | some bytes => exact absurd h List.not_mem_nil

lemma asked_planEntry {loadBias : UInt32} {table : Elf32RelTableMetadata} {i : ℕ}
    (h : q ∈ (planEntry loadBias table kind i).asked o) : PlanQuestion q := by
  rcases mem_asked_bind o |>.mp h with h | ⟨bytes, -, h⟩
  · exact asked_readRelocationBytes h
  replace h := (mem_asked_reject_bind o |>.mp h).2
  split at h
  · exact absurd h List.not_mem_nil
  split at h
  · exact absurd h List.not_mem_nil
  rename_i place _ _
  obtain ⟨haligned, h⟩ := mem_asked_reject_bind o |>.mp h
  rw [not_not] at haligned
  rcases mem_asked_bind o |>.mp h with h | ⟨_, -, h⟩
  · -- the word at the place, which passed the alignment check
    rcases mem_asked_bind o |>.mp h with h | ⟨word, -, h⟩
    · rw [List.mem_singleton.mp h]
      exact Or.inr (four_dvd_of_and_three haligned)
    · cases word with
      | none => exact absurd h List.not_mem_nil
      | some word => exact absurd h List.not_mem_nil
  · exact absurd h List.not_mem_nil

lemma asked_planEntries {loadBias : UInt32} {table : Elf32RelTableMetadata} {left i : ℕ}
    {writeTargets : List UInt32}
    (h : q ∈ (planEntries loadBias table kind left i writeTargets).asked o) : PlanQuestion q := by
  induction left generalizing i writeTargets with
  | zero => exact absurd h List.not_mem_nil
  | succ left ih =>
      rcases mem_asked_bind o |>.mp h with h | ⟨entry, -, h⟩
      · exact asked_planEntry h
      split at h
      · rcases mem_asked_bind o |>.mp h with h | ⟨entries, -, h⟩
        · exact ih h
        · exact absurd h List.not_mem_nil
      · replace h := (mem_asked_reject_bind o |>.mp h).2
        rcases mem_asked_bind o |>.mp h with h | ⟨entries, -, h⟩
        · exact ih h
        · exact absurd h List.not_mem_nil

lemma asked_plan (h : q ∈ (buildRelocationPlanForTable graph objectIndex options kind).asked o) :
    PlanQuestion q := by
  replace h := (mem_asked_reject_bind o |>.mp h).2
  dsimp only at h
  split at h
  · exact absurd h List.not_mem_nil
  replace h := (mem_asked_reject_bind o |>.mp h).2
  replace h := (mem_asked_reject_bind o |>.mp h).2
  replace h := (mem_asked_reject_bind o |>.mp h).2
  rcases mem_asked_bind o |>.mp h with h | ⟨_, -, h⟩
  · exact asked_planEntries h
  · exact absurd h List.not_mem_nil

/-- Before it has a plan, the preparation asks what the plan asks. -/
lemma asked_prepare
    (h : q ∈ (prepareRelocationsForTable graph objectIndex options kind).asked o) :
    PlanQuestion q
      ∨ ∃ plan, (buildRelocationPlanForTable graph objectIndex options kind).under o = .ok plan := by
  -- after the first stage every question comes with a plan
  have hstage : (∃ resolution, (resolveRelocationReferencesForTable graph objectIndex options
      kind).under o = .ok resolution) → ∃ plan,
        (buildRelocationPlanForTable graph objectIndex options kind).under o = .ok plan := by
    rintro ⟨resolution, hresolution⟩
    obtain ⟨plan, hplan, -⟩ := resolveRelocationReferencesForTable_ok hresolution
    exact ⟨plan, hplan⟩
  rcases mem_asked_bind o |>.mp h with h | ⟨resolution, hresolution, -⟩
  · rw [asked_mapError] at h
    rcases mem_asked_bind o |>.mp h with h | ⟨plan, hplan, -⟩
    · rw [asked_mapError] at h
      exact Or.inl (asked_plan h)
    · rw [under_mapError, mapError_ok_iff] at hplan
      exact Or.inr ⟨plan, hplan⟩
  · rw [under_mapError, mapError_ok_iff] at hresolution
    exact Or.inr (hstage ⟨resolution, hresolution⟩)

end Asked

/-! ### The writes of a successful call -/

section WriteAll

variable {M : Type} [GuestMemory M] {memory memory' : M}

/-- The writes one after the other, when none of them fails. -/
def writeAll : List Elf32RelocationWrite → M → Option M
  | [], memory => some memory
  | write :: left, memory =>
    match writeWord memory write.placeGuestAddress write.finalWord with
    | (true, memory) => writeAll left memory
    | (false, _) => none

lemma writeAll_append (writes writes' : List Elf32RelocationWrite) (memory : M) :
    writeAll (writes ++ writes') memory = (writeAll writes memory).bind (writeAll writes') := by
  induction writes generalizing memory with
  | nil => rfl
  | cons write writes ih =>
      rw [List.cons_append, writeAll, writeAll]
      split
      · exact ih _
      · rfl

/-- The write loop succeeds when no write fails. -/
lemma applyWrites_eq_ok_iff {objectIndex : ℕ} {pending left applied : List Elf32RelocationWrite}
    {result : Elf32RelocationApplyResult} :
    (applyWrites objectIndex pending left applied memory = (result, memory')
        ∧ result.error = none)
      ↔ writeAll left memory = some memory'
        ∧ result = { application := { objectIndex, writes := pending } } := by
  induction left generalizing applied memory with
  | nil =>
      rw [applyWrites, writeAll, Prod.mk.injEq, Option.some.injEq]
      constructor
      · rintro ⟨⟨rfl, rfl⟩, -⟩
        exact ⟨rfl, rfl⟩
      · rintro ⟨rfl, rfl⟩
        exact ⟨⟨rfl, rfl⟩, rfl⟩
  | cons write left ih =>
      rw [applyWrites, writeAll]
      rcases writeWord memory write.placeGuestAddress write.finalWord with ⟨written, memory₁⟩
      cases written with
      | true => exact ih
      | false =>
          simp only [Prod.mk.injEq, reduceCtorEq, false_and, iff_false, not_and]
          rintro ⟨rfl, -⟩ herror
          cases herror

/-- A call succeeds when its preparation does and no write fails. -/
lemma RelocationCall.apply_eq_ok_iff (call : RelocationCall) {graph : Elf32DependencyGraph}
    {objectIndex : ℕ} {options : Elf32RelocationOptions} {result : Elf32RelocationApplyResult} :
    (call.apply memory graph objectIndex options = (result, memory') ∧ result.error = none)
      ↔ ∃ pending,
        (call.prepare graph objectIndex options).under (GuestMemory.reads memory) = .ok pending
        ∧ writeAll pending memory = some memory'
        ∧ result = { application := { objectIndex, writes := pending } } := by
  rw [call.apply_eq, applyPrepared]
  cases hprepare : (call.prepare graph objectIndex options).under (GuestMemory.reads memory) with
  | error failure =>
      have herror := (call.prepare_error hprepare).error
      simp only [Prod.mk.injEq, reduceCtorEq, false_and, exists_false, iff_false, not_and]
      rintro ⟨rfl, -⟩ hnone
      rw [hnone] at herror
      simp at herror
  | ok pending =>
      dsimp only [applyPendingRelocations]
      rw [applyWrites_eq_ok_iff]
      constructor
      · exact fun h => ⟨pending, rfl, h⟩
      · rintro ⟨pending', hpending, h⟩
        cases hpending
        exact h

end WriteAll

/-- The sparse backend changes the bytes of the words written. -/
lemma MappedGuestMemory.writeAll_eq {m m' : MappedGuestMemory} {writes : List Elf32RelocationWrite}
    (h : writeAll writes m = some m') :
    m' = m.withBytes (overwriteAll m.reservation (writes.map (·.bytes))) := by
  induction writes generalizing m with
  | nil =>
      cases h
      rfl
  | cons write writes ih =>
      rw [writeAll] at h
      split at h
      · rename_i m₁ hwrite
        rw [ih h, (MappedGuestMemory.write_eq_true hwrite).2]
        rfl
      · cases h

/-- A read outside the bytes that differ. -/
lemma MappedGuestMemory.reads_withBytes {m : MappedGuestMemory} {bytes : ℕ → UInt8}
    {q : UInt32 × ℕ} (h : ∀ x < q.2, bytes (q.1.toNat + x) = m.reservation (q.1.toNat + x)) :
    GuestMemory.reads (m.withBytes bytes) q = GuestMemory.reads m q := by
  have hwindow : window bytes q.1.toNat q.2 = window m.reservation q.1.toNat q.2 :=
    List.map_congr_left fun x hx => h x (List.mem_range.mp hx)
  show (if m.validAccess q.1 q.2 .read then some (window bytes q.1.toNat q.2) else none) = _
  rw [hwindow]
  rfl

/-- A second table check that passes. -/
lemma checkTargets_of_distinct {objectIndex : ℕ} {targets : List UInt32}
    {writes : List Elf32RelocationWrite} (hdistinct : (writes.map (·.placeGuestAddress)).Nodup)
    (hnew : ∀ write ∈ writes, write.placeGuestAddress ∉ targets) :
    checkTargets objectIndex targets writes = .ok () := by
  induction writes generalizing targets with
  | nil => rfl
  | cons write writes ih =>
      rw [List.map_cons, List.nodup_cons] at hdistinct
      rw [checkTargets, if_neg (hnew write List.mem_cons_self)]
      refine ih hdistinct.2 fun write' hmem hold => ?_
      rcases List.mem_cons.mp hold with hsame | hold
      · exact hdistinct.1 (hsame ▸ List.mem_map_of_mem hmem)
      · exact hnew write' (List.mem_cons_of_mem _ hmem) hold

/-! ### Agreement -/

section Agreement

variable {m m₁ m' : MappedGuestMemory} {graph : Elf32DependencyGraph} {objectIndex : ℕ}
  {options : Elf32RelocationOptions}

/-- The reads of the PLT preparation, but for those of the words at PLT places, do not
meet a place of the main table. -/
def PltReadsSpared (m : MappedGuestMemory) (graph : Elf32DependencyGraph) (objectIndex : ℕ)
    (options : Elf32RelocationOptions) : Prop :=
  let object := relocatedObject graph objectIndex
  ∀ q ∈ (prepareRelocationsForTable graph objectIndex options .pltRel).asked (GuestMemory.reads m),
    ¬(q.2 = 4 ∧ q.1.toNat ∈ tablePlaces m.reservation object .pltRel) →
      ∀ p ∈ tablePlaces m.reservation object .mainRel, ∀ x < q.2,
        q.1.toNat + x < p ∨ p + 4 ≤ q.1.toNat + x

instance : Decidable (PltReadsSpared m graph objectIndex options) :=
  inferInstanceAs (Decidable (∀ q ∈ (prepareRelocationsForTable graph objectIndex options
    .pltRel).asked (GuestMemory.reads m), _ → _))

/-- The tables have no place in common. -/
def NoSharedPlace (m : MappedGuestMemory) (graph : Elf32DependencyGraph) (objectIndex : ℕ) : Prop :=
  let object := relocatedObject graph objectIndex
  ∀ p ∈ tablePlaces m.reservation object .mainRel, p ∉ tablePlaces m.reservation object .pltRel

/-- **The main table does not disturb the preparation of the PLT table.** -/
lemma prepare_plt_after_main {mainPending : List Elf32RelocationWrite}
    (hspared : PltReadsSpared m graph objectIndex options)
    (hshared : NoSharedPlace m graph objectIndex)
    (hmain : (prepareRelocationsForTable graph objectIndex options .mainRel).under
      (GuestMemory.reads m) = .ok mainPending)
    (hwrites : writeAll mainPending m = some m₁) :
    (prepareRelocationsForTable graph objectIndex options .pltRel).under (GuestMemory.reads m₁)
      = (prepareRelocationsForTable graph objectIndex options .pltRel).under
        (GuestMemory.reads m) := by
  have hplaces := prepareRelocationsForTable_places hmain
  have haligned := (prepareRelocationsForTable_pending hmain).aligned
  refine under_congr_asked fun q hq => ?_
  rw [MappedGuestMemory.writeAll_eq hwrites]
  refine MappedGuestMemory.reads_withBytes fun x hx => overwriteAll_of_outside fun w hw => ?_
  obtain ⟨write, hwrite, rfl⟩ := List.mem_map.mp hw
  have hmem : write.placeGuestAddress.toNat
      ∈ tablePlaces m.reservation (relocatedObject graph objectIndex) .mainRel :=
    hplaces ▸ List.mem_map_of_mem hwrite
  show q.1.toNat + x < write.placeGuestAddress.toNat
    ∨ write.placeGuestAddress.toNat + 4 ≤ q.1.toNat + x
  by_cases hplace : q.2 = 4
      ∧ q.1.toNat ∈ tablePlaces m.reservation (relocatedObject graph objectIndex) .pltRel
  · -- the word at another place: both are aligned
    obtain ⟨hfour, hplt⟩ := hplace
    have hq4 : 4 ∣ q.1.toNat := by
      rcases asked_prepare hq with (h8 | h4) | ⟨plan, hplan⟩
      · omega
      · exact h4
      · exact aligned_of_plan hplan _ hplt
    have hne : write.placeGuestAddress.toNat ≠ q.1.toNat := fun heq =>
      hshared _ hmem (heq ▸ hplt)
    have hw4 := haligned write hwrite
    omega
  · exact hspared q hq hplace _ hmem x hx

/-- Successful preparations of the two tables, in terms of places. -/
lemma noSharedPlace_iff {mainPending pltPending : List Elf32RelocationWrite}
    (hmain : (prepareRelocationsForTable graph objectIndex options .mainRel).under
      (GuestMemory.reads m) = .ok mainPending)
    (hplt : (prepareRelocationsForTable graph objectIndex options .pltRel).under
      (GuestMemory.reads m) = .ok pltPending) :
    NoSharedPlace m graph objectIndex
      ↔ ∀ write ∈ pltPending, write.placeGuestAddress ∉ mainPending.map (·.placeGuestAddress) := by
  rw [NoSharedPlace, ← prepareRelocationsForTable_places hmain,
    ← prepareRelocationsForTable_places hplt]
  constructor
  · intro h write hwrite hold
    obtain ⟨write', hwrite', hsame⟩ := List.mem_map.mp hold
    refine h _ (List.mem_map_of_mem hwrite') ?_
    rw [hsame]
    exact List.mem_map_of_mem hwrite
  · intro h p hp hp'
    obtain ⟨write', hwrite', rfl⟩ := List.mem_map.mp hp
    obtain ⟨write, hwrite, hsame⟩ := List.mem_map.mp hp'
    refine h write hwrite ?_
    rw [UInt32.toNat_inj.mp hsame]
    exact List.mem_map_of_mem hwrite'

/-- **Combined relocation agrees with the two tables one after the other**, when the
main table spares what the preparation of the PLT table reads.  If the combined call
succeeds, the two calls do, with the same memory and writes; and if the two calls
succeed and the tables share no place, the combined call does. -/
theorem combined_agrees (hspared : PltReadsSpared m graph objectIndex options) :
    (∀ result, applyElf32CombinedRelocations m graph objectIndex options = (result, m') →
        result.error = none →
      ∃ main m₁ plt, applyElf32RelRelocations m graph objectIndex options = (main, m₁)
        ∧ main.error = none
        ∧ applyElf32PltRelRelocations m₁ graph objectIndex options = (plt, m')
        ∧ plt.error = none
        ∧ result.application.writes = main.application.writes ++ plt.application.writes)
      ∧ ∀ main m₁ plt, applyElf32RelRelocations m graph objectIndex options = (main, m₁) →
          main.error = none → applyElf32PltRelRelocations m₁ graph objectIndex options = (plt, m') →
          plt.error = none → NoSharedPlace m graph objectIndex →
        ∃ result, applyElf32CombinedRelocations m graph objectIndex options = (result, m')
          ∧ result.error = none
          ∧ result.application.writes = main.application.writes ++ plt.application.writes := by
  constructor
  · intro result happly hnone
    obtain ⟨pending, hprepare, hwrites, rfl⟩ :=
      (RelocationCall.apply_eq_ok_iff .combined).mp ⟨happly, hnone⟩
    obtain ⟨mainPending, pltPending, rfl, hmain, hplt, hnew⟩ :=
      prepareCombinedRelocations_ok hprepare
    rw [writeAll_append, Option.bind_eq_some_iff] at hwrites
    obtain ⟨m₁, hwrites₁, hwrites₂⟩ := hwrites
    have hplt₁ := (prepare_plt_after_main hspared ((noSharedPlace_iff hmain hplt).mpr hnew) hmain
      hwrites₁).trans hplt
    obtain ⟨happly₁, hnone₁⟩ := (RelocationCall.apply_eq_ok_iff .rel).mpr
      ⟨mainPending, hmain, hwrites₁, rfl⟩
    obtain ⟨happly₂, hnone₂⟩ := (RelocationCall.apply_eq_ok_iff .pltRel).mpr
      ⟨pltPending, hplt₁, hwrites₂, rfl⟩
    exact ⟨_, m₁, _, happly₁, hnone₁, happly₂, hnone₂, rfl⟩
  · intro main m₁ plt happly₁ hnone₁ happly₂ hnone₂ hshared
    obtain ⟨mainPending, hmain, hwrites₁, rfl⟩ :=
      (RelocationCall.apply_eq_ok_iff .rel).mp ⟨happly₁, hnone₁⟩
    rw [RelocationCall.prepare] at hmain
    obtain ⟨pltPending, hplt₁, hwrites₂, rfl⟩ :=
      (RelocationCall.apply_eq_ok_iff .pltRel).mp ⟨happly₂, hnone₂⟩
    have hplt := (prepare_plt_after_main hspared hshared hmain hwrites₁).symm.trans hplt₁
    have hcheck : checkTargets objectIndex (mainPending.map (·.placeGuestAddress)) pltPending
        = .ok () := checkTargets_of_distinct (prepareRelocationsForTable_pending hplt).distinct
      ((noSharedPlace_iff hmain hplt).mp hshared)
    have hprepare : (prepareCombinedRelocations graph objectIndex options).under
        (GuestMemory.reads m) = .ok (mainPending ++ pltPending) := by
      simp only [prepareCombinedRelocations, under_bind, hmain, hplt, ok_bind, under_ofExcept,
        hcheck, under_pure]
    have hwrites : writeAll (mainPending ++ pltPending) m = some m' := by
      rw [writeAll_append, hwrites₁]
      exact hwrites₂
    obtain ⟨happly, hnone⟩ := (RelocationCall.apply_eq_ok_iff .combined).mpr
      ⟨_, hprepare, hwrites, rfl⟩
    exact ⟨_, happly, hnone, rfl⟩

theorem combined_agrees_relocatable :
    PltReadsSpared relocatableMemory relocatableGraph 0 relocationLimits
      ∧ ∃ main m₁ plt,
        applyElf32RelRelocations relocatableMemory relocatableGraph 0 relocationLimits = (main, m₁)
        ∧ main.error = none
        ∧ (applyElf32PltRelRelocations m₁ relocatableGraph 0 relocationLimits).1 = plt
        ∧ plt.error = none
        ∧ (main.application.writes ++ plt.application.writes).map (·.placeGuestAddress)
          = [0x1104, 0x1108, 0x110c] := by
  have hspared : PltReadsSpared relocatableMemory relocatableGraph 0 relocationLimits := by
    decide +kernel
  have hnone : (applyElf32CombinedRelocations relocatableMemory relocatableGraph 0
      relocationLimits).1.error = none := by decide +kernel
  have hplaces : (applyElf32CombinedRelocations relocatableMemory relocatableGraph 0
      relocationLimits).1.application.writes.map (·.placeGuestAddress)
        = [0x1104, 0x1108, 0x110c] := by decide +kernel
  obtain ⟨main, m₁, plt, happly₁, hnone₁, happly₂, hnone₂, hwrites⟩ :=
    (combined_agrees hspared).1 _ rfl hnone
  refine ⟨hspared, main, m₁, plt, happly₁, hnone₁, by rw [happly₂], hnone₂, ?_⟩
  rw [← hwrites]
  exact hplaces

end Agreement

end LibA32Android

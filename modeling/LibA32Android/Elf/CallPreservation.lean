/-
What the calls of the ELF side keep of a memory, whatever the host answers.

* `loadElf32_spares`, `loadElf32DependencyGraph_spares`, `appendElf32LinkMapRoot_spares`: a
  load touches pages only that were not mapped before it, also when it fails and its
  rollback fails too;
* `applyPrepared_writtenTo`: a relocation call writes to writable pages, also in a rollback;
* `sealElf32GnuRelro_preserves`: sealing narrows permissions;
* `loadElf32_kept` and the others: an invariant of the page operations is one of the calls.
-/
import LibA32Android.Elf.LeakReport
import LibA32Android.Elf.RelocationApply
import LibA32Android.Elf.Relro
import LibA32Android.Memory.Preservation

namespace LibA32Android

open Foundations MappedGuestMemory

variable {P : Type}

/-! ### Loads spare what is mapped -/

/-- **A load spares what is mapped.** -/
lemma loadElf32_spares (m : MappedGuestMemory) (image : List UInt8) (options : Elf32LoadOptions) :
    m.Spares (loadElf32 m image options).2 := by
  rcases hload : loadElf32 m image options with ⟨e | result, m'⟩
  · rw [loadElf32] at hload
    cases hprep : prepareElf32Load m image options with
    | error e' =>
        rw [hprep] at hload
        cases hload
        exact .refl m
    | ok biased =>
        obtain ⟨_, hprepared⟩ := prepareElf32Load_ok hprep
        rw [hprep] at hload
        rcases loadSegments_calls hprepared.allOk (prepareElf32Load_free hprep)
            hprepared.ranges_disjoint with ⟨m₁, hrun, -⟩ | ⟨e', k, mapped, m₁, hrun, hstopped⟩
        · simp only [hrun] at hload
          cases hload
        · simp only [hrun] at hload
          cases hload
          have hacquired := hstopped.acquired
          exact hacquired.spares.unmapAll hacquired.isRange hacquired.free
  · exact (loadElf32_acquired hload).spares

/-- The load of an object makes at most one load. -/
lemma loadObject_memory (m : MappedGuestMemory) (object : Elf32LoadedDependencyObject)
    (options : Elf32DependencyLoadOptions) (requireDynamic : Bool) :
    (loadObject m object options requireDynamic).2 = m
      ∨ ∃ loadOptions, (loadObject m object options requireDynamic).2
          = (loadElf32 m object.image loadOptions).2 := by
  rw [loadObject]
  split
  · exact .inl rfl
  split
  · exact .inl rfl
  split
  · exact .inl rfl
  · rename_i loadOptions _
    refine .inr ⟨loadOptions, ?_⟩
    rcases loadElf32 m object.image loadOptions with ⟨_ | _, _⟩
    · rfl
    · rfl

namespace GraphLoadContext

variable {m₀ : MappedGuestMemory} {base : List Elf32LoadedDependencyObject}
  {ctx ctx' : GraphLoadContext P} {options : Elf32DependencyLoadOptions}

lemma loadAt_memory (options : Elf32DependencyLoadOptions) (index : ℕ) (requireDynamic : Bool)
    (ctx : GraphLoadContext P) :
    (ctx.loadAt options index requireDynamic).2.memory
      = (loadObject ctx.memory (ctx.object index) options requireDynamic).2 := by
  rw [loadAt]
  rcases loadObject ctx.memory (ctx.object index) options requireDynamic with ⟨_ | _, _⟩
  · rfl
  · rfl

/-- The loads to be rolled back are those before a failed one. -/
lemma loadAt_error_loads {failure : Elf32DependencyLoadFailure} {index : ℕ} {requireDynamic : Bool}
    (h : ctx.loadAt options index requireDynamic = (.error failure, ctx')) :
    ctx'.successfulLoads = ctx.successfulLoads := by
  rw [loadAt] at h
  split at h
  · cases h
    rfl
  · cases h

/-- A rollback of loads that found their pages free spares what was mapped before them. -/
lemma Holds.rollback_spares (h : ctx.Holds m₀ base) {m : MappedGuestMemory} (hm : m₀.Spares m)
    (failure : Elf32DependencyLoadFailure) :
    m₀.Spares (rollbackFailure m ctx.successfulLoads failure).2 := by
  rw [rollbackFailure, rollbackLoads_eq_unmapAll h.range_le]
  exact hm.unmapAll h.acquired.isRange h.acquired.free

end GraphLoadContext

variable [Elf32DependencyProvider P]

/-- **A call of either entry point spares what is mapped.** -/
lemma CallRun.spares {options : Elf32DependencyLoadOptions} {m m' : MappedGuestMemory}
    {provider provider' : P} {base objects : List Elf32LoadedDependencyObject}
    {start : Option (GraphLoadContext P)} {result : Elf32DependencyLoadResult}
    (h : CallRun options m provider base start result objects m' provider') : m.Spares m' := by
  cases h with
  | idle => exact .refl m
  | failed ctx₀ hstart failure ctx hrun =>
      have hfollows := GraphLoadContext.processObject_rule
        (GraphLoadContext.holds_rule options m base) (options.maxDepth.toNat + 1) 0 base.length
        false hstart.holds
      have hleaves := hfollows.leaves
      rw [hrun] at hleaves
      rcases hleaves with hstopped | ⟨moment, hmoment, requireDynamic, failure', -, hload, -⟩
      · exact hstopped.holds.rollback_spares hstopped.holds.acquired.spares failure
      · -- the failed load has undone what it could, and the loads before it follow
        have hholds := hfollows.moments moment hmoment
        rw [GraphLoadContext.loadAt_error_loads hload]
        refine hholds.rollback_spares (hholds.acquired.spares.trans ?_) failure
        have hmemory :=
          GraphLoadContext.loadAt_memory options moment.index requireDynamic moment.ctx
        rw [hload] at hmemory
        rw [hmemory]
        rcases loadObject_memory moment.ctx.memory (moment.ctx.object moment.index) options
            requireDynamic with hsame | ⟨loadOptions, hloaded⟩
        · rw [hsame]
          exact .refl _
        · rw [hloaded]
          exact loadElf32_spares ..
  | loaded ctx₀ hstart ctx hrun _ _ =>
      have hleaves := (GraphLoadContext.processObject_rule
        (GraphLoadContext.holds_rule options m base) (options.maxDepth.toNat + 1) 0 base.length
        false hstart.holds).leaves
      rw [hrun] at hleaves
      exact hleaves.acquired.spares

lemma loadElf32DependencyGraph_spares (m : MappedGuestMemory) (root : Elf32DependencyLoadSource)
    (provider : P) (options : Elf32DependencyLoadOptions) :
    m.Spares (loadElf32DependencyGraph m root provider options).2.1 :=
  (loadElf32DependencyGraph_run m root provider options).spares

lemma appendElf32LinkMapRoot_spares (m : MappedGuestMemory) (linkMap : Elf32LinkMap)
    (root : Elf32DependencyLoadSource) (provider : P) (options : Elf32DependencyLoadOptions)
    (rootPolicy : Elf32LinkMapRootPolicy) :
    m.Spares (appendElf32LinkMapRoot m linkMap root provider options rootPolicy).2.2.1 :=
  (appendElf32LinkMapRoot_run m linkMap root provider options rootPolicy).spares

/-! ### Invariants of the operations are invariants of the loads -/

section Kept

variable {I : MappedGuestMemory → Prop}

lemma MappedGuestMemory.KeptByOperations.zeroFill (hI : KeptByOperations I)
    (rounds zeroAddress remaining : ℕ) {m : MappedGuestMemory} (h : I m) :
    I (zeroFill rounds zeroAddress remaining m).2 := by
  induction rounds generalizing zeroAddress remaining m with
  | zero => exact h
  | succ rounds ih =>
      have hwrite := hI.write m (UInt32.ofNat zeroAddress) (List.replicate (min remaining 4096) 0) h
      rw [MappedGuestMemory.zeroFill]
      split
      · dsimp only
        rcases hw : GuestMemory.write m (UInt32.ofNat zeroAddress)
          (List.replicate (min remaining 4096) 0) with ⟨_ | _, m'⟩
        · rw [hw] at hwrite
          exact hwrite
        · rw [hw] at hwrite
          exact ih _ _ hwrite
      · exact h

lemma MappedGuestMemory.KeptByOperations.initializeSegment (hI : KeptByOperations I)
    (image : List UInt8) (planned : PlannedSegment) {m : MappedGuestMemory} (h : I m) :
    I (initializeSegment image m planned).2 := by
  have hbytes : I (m.writeFileBytes image planned).2 := by
    rw [writeFileBytes]
    split
    · exact hI.write _ _ _ h
    · exact h
  rw [MappedGuestMemory.initializeSegment]
  rcases hw : m.writeFileBytes image planned with ⟨_ | _, m'⟩
  · rw [hw] at hbytes
    exact hbytes
  · rw [hw] at hbytes
    exact hI.zeroFill _ _ _ hbytes

/-- What the steps of a loop keep, the loop keeps. -/
lemma stepAll_keeps {σ α : Type} {step : σ → α → Bool × σ} {K : σ → Prop}
    (hstep : ∀ s a, K s → K (step s a).2) (l : List α) {s : σ} (h : K s) :
    K (stepAll step l s).2 := by
  induction l generalizing s with
  | nil => exact h
  | cons a l ih =>
      have hnext := hstep s a h
      rw [stepAll]
      rcases hs : step s a with ⟨_ | _, s'⟩
      · rw [hs] at hnext
        exact hnext
      · rw [hs] at hnext
        exact ih hnext

lemma MappedGuestMemory.KeptByOperations.loadSegments (hI : KeptByOperations I)
    (image : List UInt8) (segments : List PlannedSegment) {m : MappedGuestMemory} (h : I m) :
    I (m.loadSegments image segments).2 := by
  have hmap : I (stepAll mapSegment segments ([], m)).2.2 := by
    refine stepAll_keeps (K := fun s : List MappedRange × MappedGuestMemory => I s.2)
      (fun s planned hs => ?_) segments h
    rw [(mapSegment_report s planned).2]
    exact hI.map _ _ _ _ hs
  rw [MappedGuestMemory.loadSegments]
  rcases hm : stepAll mapSegment segments ([], m) with ⟨_ | _, mapped, m₁⟩
  · rw [hm] at hmap
    exact hI.unmapAll mapped hmap
  rw [hm] at hmap
  have hinit : I (stepAll (MappedGuestMemory.initializeSegment image) segments m₁).2 :=
    stepAll_keeps (fun _ planned hs => hI.initializeSegment image planned hs) segments hmap
  dsimp only
  rcases hn : stepAll (MappedGuestMemory.initializeSegment image) segments m₁ with ⟨_ | _, m₂⟩
  · rw [hn] at hinit
    exact hI.unmapAll mapped hinit
  rw [hn] at hinit
  have hprotect : I (stepAll protectSegment segments m₂).2 :=
    stepAll_keeps (fun _ _ hs => hI.protect _ _ _ _ hs) segments hinit
  dsimp only
  rcases hp : stepAll protectSegment segments m₂ with ⟨_ | _, m₃⟩
  · rw [hp] at hprotect
    exact hI.unmapAll mapped hprotect
  · rw [hp] at hprotect
    exact hprotect

lemma loadElf32_kept (hI : KeptByOperations I) {m : MappedGuestMemory} (h : I m)
    (image : List UInt8) (options : Elf32LoadOptions) : I (loadElf32 m image options).2 := by
  rw [loadElf32]
  cases prepareElf32Load m image options with
  | error e => exact h
  | ok biased =>
      have hsegments := hI.loadSegments image biased.plannedSegments h
      dsimp only
      rcases hs : m.loadSegments image biased.plannedSegments with ⟨_ | _, m'⟩
      · rw [hs] at hsegments
        exact hsegments
      · rw [hs] at hsegments
        exact hsegments

namespace GraphLoadContext

omit [Elf32DependencyProvider P] in
lemma loadAt_kept (hI : KeptByOperations I) {ctx : GraphLoadContext P} (h : I ctx.memory)
    (options : Elf32DependencyLoadOptions) (index : ℕ) (requireDynamic : Bool) :
    I (ctx.loadAt options index requireDynamic).2.memory := by
  rw [loadAt_memory]
  rcases loadObject_memory ctx.memory (ctx.object index) options requireDynamic with
    hsame | ⟨loadOptions, hloaded⟩
  · rw [hsame]
    exact h
  · rw [hloaded]
    exact loadElf32_kept hI h _ _

/-- The steps of a graph load keep an invariant of the operations. -/
lemma memory_rule (hI : KeptByOperations I) (options : Elf32DependencyLoadOptions) :
    @ProcessRule P _ options (fun ctx => I ctx.memory) (fun _ ctx => I ctx.memory)
      fun _ => True where
  named h := h
  discovered _ _ := trivial
  tooDeep h _ := h
  begun h _ := h
  ended h _ := h
  loaded {ctx _ index requireDynamic} h _ hload := by
    have hkept := loadAt_kept hI h options index requireDynamic
    rwa [hload] at hkept
  inspected {ctx index} h _ := by
    rw [inspectAt]
    rcases (inspectObject ctx.memory (ctx.object index) options).1 with _ | _
    · exact h
    · exact h
  acquired {ctx index} h _ := by
    simp only [acquireAt]
    split
    · exact h
    split
    · exact h
    split
    · exact ⟨h, fun _ hd => absurd hd List.not_mem_nil⟩
    split
    · exact h
    rename_i hresolve
    split
    · exact h
    · exact ⟨h, (resolveElf32Dependencies_ok hresolve).1⟩
  mismatched h := h
  full h := h
  known h _ _ _ := h
  added h _ _ _ _ := h

end GraphLoadContext

lemma rollbackFailure_kept (hI : KeptByOperations I) {m : MappedGuestMemory} (h : I m)
    (loads : List Elf32LoadResult) (failure : Elf32DependencyLoadFailure) :
    I (rollbackFailure m loads failure).2 := by
  have hload (load : Elf32LoadResult) {m : MappedGuestMemory} (h : I m) :
      I (rollbackLoad load m).2 := by
    rw [rollbackLoad]
    induction load.segments with
    | nil => exact h
    | cons segment segments ih =>
        rw [List.foldr_cons]
        split
        · exact ih
        · exact hI.unmap _ _ _ ih
  change I (rollbackLoads loads m).2
  induction loads with
  | nil => exact h
  | cons load loads ih => exact hload load ih

/-- **A call of either entry point keeps an invariant of the operations.** -/
lemma CallRun.kept (hI : KeptByOperations I) {options : Elf32DependencyLoadOptions}
    {m m' : MappedGuestMemory} {provider provider' : P}
    {base objects : List Elf32LoadedDependencyObject} {start : Option (GraphLoadContext P)}
    {result : Elf32DependencyLoadResult}
    (h : CallRun options m provider base start result objects m' provider')
    (hmemory : ∀ ctx, start = some ctx → ctx.memory = m) (hm : I m) : I m' := by
  have hrule := GraphLoadContext.memory_rule (P := P) hI options
  cases h with
  | idle => exact hm
  | failed ctx₀ hstart failure ctx hrun =>
      have hfollows := GraphLoadContext.processObject_rule hrule (options.maxDepth.toNat + 1) 0
        base.length false (hmemory ctx₀ rfl ▸ hm)
      have hleaves := hfollows.leaves
      rw [hrun] at hleaves
      refine rollbackFailure_kept hI ?_ _ _
      rcases hleaves with hstopped | ⟨moment, hmoment, requireDynamic, failure', -, hload, -⟩
      · exact hstopped
      · have hkept := GraphLoadContext.loadAt_kept hI (hfollows.moments moment hmoment) options
          moment.index requireDynamic
        rwa [hload] at hkept
  | loaded ctx₀ hstart ctx hrun _ _ =>
      have hleaves := (GraphLoadContext.processObject_rule hrule (options.maxDepth.toNat + 1) 0
        base.length false (hmemory ctx₀ rfl ▸ hm)).leaves
      rw [hrun] at hleaves
      exact hleaves

lemma loadElf32DependencyGraph_kept (hI : KeptByOperations I) {m : MappedGuestMemory} (h : I m)
    (root : Elf32DependencyLoadSource) (provider : P) (options : Elf32DependencyLoadOptions) :
    I (loadElf32DependencyGraph m root provider options).2.1 := by
  refine (loadElf32DependencyGraph_run m root provider options).kept hI (fun ctx hctx => ?_) h
  rw [graphStart] at hctx
  split at hctx
  · cases hctx
  · cases hctx
    rfl

lemma appendElf32LinkMapRoot_kept (hI : KeptByOperations I) {m : MappedGuestMemory} (h : I m)
    (linkMap : Elf32LinkMap) (root : Elf32DependencyLoadSource) (provider : P)
    (options : Elf32DependencyLoadOptions) (rootPolicy : Elf32LinkMapRootPolicy) :
    I (appendElf32LinkMapRoot m linkMap root provider options rootPolicy).2.2.1 := by
  refine (appendElf32LinkMapRoot_run m linkMap root provider options rootPolicy).kept hI
    (fun ctx hctx => ?_) h
  simp only [appendStart] at hctx
  repeat' split at hctx
  all_goals cases hctx
  rfl

end Kept

/-! ### Relocations write to writable pages -/

section Relocations

variable {m m' : MappedGuestMemory}

lemma restoreWord_writtenTo (m : MappedGuestMemory) (address original : UInt32) :
    m.WrittenTo (restoreWord m address original).2 := by
  have hwrite := WrittenTo.write m address (encodeU32Le original)
  rw [restoreWord]
  rcases hw : writeWord m address original with ⟨_ | _, m'⟩
  · rw [← writeWord, hw] at hwrite
    exact hwrite
  · rw [← writeWord, hw] at hwrite
    exact hwrite

lemma restoreWrite_writtenTo (state : RollbackReport × MappedGuestMemory)
    (write : Elf32RelocationWrite) : state.2.WrittenTo (restoreWrite state write).2 := by
  have hword := restoreWord_writtenTo state.2 write.placeGuestAddress write.originalWord
  rw [restoreWrite]
  rcases hr : restoreWord state.2 write.placeGuestAddress write.originalWord with ⟨_ | _, m'⟩
  · rw [hr] at hword
    exact hword
  · rw [hr] at hword
    exact hword

lemma rollbackWrites_writtenTo (m : MappedGuestMemory) (write : Elf32RelocationWrite)
    (applied : List Elf32RelocationWrite) : m.WrittenTo (rollbackWrites m write applied).2 := by
  have hfold (state : RollbackReport × MappedGuestMemory) :
      state.2.WrittenTo (applied.foldl restoreWrite state).2 := by
    induction applied generalizing state with
    | nil => exact .refl _
    | cons write applied ih => exact (restoreWrite_writtenTo state write).trans (ih _)
  rw [rollbackWrites]
  split
  · exact hfold ({}, m)
  · exact (restoreWrite_writtenTo ({}, m) write).trans (hfold _)

lemma applyWrites_writtenTo (objectIndex : ℕ) (pending left applied : List Elf32RelocationWrite)
    (m : MappedGuestMemory) :
    m.WrittenTo (applyWrites objectIndex pending left applied m).2 := by
  induction left generalizing applied m with
  | nil => exact .refl m
  | cons write left ih =>
      have hwrite := WrittenTo.write m write.placeGuestAddress (encodeU32Le write.finalWord)
      rw [applyWrites]
      rcases hw : writeWord m write.placeGuestAddress write.finalWord with ⟨_ | _, m'⟩
      · rw [← writeWord, hw] at hwrite
        exact hwrite.trans (rollbackWrites_writtenTo m' write applied)
      · rw [← writeWord, hw] at hwrite
        exact hwrite.trans (ih _ m')

/-- **A relocation call writes to writable pages**, whatever it reports. -/
lemma applyPrepared_writtenTo (m : MappedGuestMemory) (objectIndex : ℕ)
    (prepare : GuestRead Elf32RelocationApplyResult (List Elf32RelocationWrite)) :
    m.WrittenTo (applyPrepared m objectIndex prepare).2 := by
  rw [applyPrepared]
  split
  · exact .refl m
  · exact applyWrites_writtenTo ..

end Relocations

/-! ### Sealing narrows permissions -/

section Seal

variable {m m' : MappedGuestMemory} {I : MappedGuestMemory → Prop}

lemma MappedGuestMemory.PlannedPages.preserves {relroSegments : List Elf32RelroSegment}
    {pages left : List PlannedRelroPage} (h : m.PlannedPages relroSegments pages)
    (hleft : ∀ page ∈ left, page ∈ pages) (hsealed : m.SealedOn left m') : m.Preserves m' := by
  refine .of_narrowed hsealed.pageSize hsealed.reservation (fun page hm => ?_)
    (fun page required hgrants => ?_) fun page hread => ?_
  · rw [mapped_iff_isSome] at hm ⊢
    rw [hsealed.permissions, readOnlyOn]
    split
    · rfl
    · exact hm
  · obtain ⟨permissions, hpermissions, hrequired⟩ := grants_iff.mp hgrants
    exact grants_iff.mpr (h.narrows hsealed hleft hpermissions hrequired)
  · rw [grants_iff] at hread ⊢
    rw [hsealed.permissions, readOnlyOn]
    split
    · exact ⟨.read, rfl, by decide⟩
    · exact hread

/-- What a call of the sealer can do: nothing, which is a success only without descriptors, or
make some of the planned pages read-only, which on success are all of them. -/
lemma sealElf32GnuRelro_cases (m : MappedGuestMemory) (load : Elf32LoadResult)
    (options : Elf32RelroOptions) :
    ((sealElf32GnuRelro m load options).2 = m
        ∧ ∀ sealedPages, (sealElf32GnuRelro m load options).1 = .ok sealedPages →
          load.relroSegments = [])
      ∨ ∃ pages left, m.PlannedPages load.relroSegments pages ∧ (∀ page ∈ left, page ∈ pages)
        ∧ m.SealedOn left (sealElf32GnuRelro m load options).2
        ∧ ∀ sealedPages, (sealElf32GnuRelro m load options).1 = .ok sealedPages →
          ∀ index ∈ m.indicesOf pages,
            (sealElf32GnuRelro m load options).2.mappedPermissions index = some .read := by
  rw [sealElf32GnuRelro]
  split
  · rename_i hempty
    exact .inl ⟨rfl, fun _ _ => List.isEmpty_iff.mp hempty⟩
  cases hplan : planRelroPages m load.relroSegments options with
  | error failure =>
      refine .inl ⟨rfl, fun sealedPages hok => ?_⟩
      cases hok
  | ok pages =>
      have hplanned := plannedPages_of_ok hplan
      have hleaves := hplanned.leaves
      dsimp only
      rcases hrun : m.sealRelroPages [] pages with ⟨failure | _, m'⟩
      · rw [hrun] at hleaves
        obtain ⟨-, left, hleft, hsealed⟩ := hleaves
        refine .inr ⟨pages, left, hplanned, hleft, hsealed, fun sealedPages hok => ?_⟩
        cases hok
      · rw [hrun] at hleaves
        obtain ⟨hpermissions, left, hleft, hsealed⟩ := hleaves
        refine .inr ⟨pages, left, hplanned, hleft, hsealed, fun _ _ index hindex => ?_⟩
        rw [hpermissions, if_pos hindex]

/-- **Sealing narrows permissions**, whatever it reports. -/
lemma sealElf32GnuRelro_preserves (m : MappedGuestMemory) (load : Elf32LoadResult)
    (options : Elf32RelroOptions) : m.Preserves (sealElf32GnuRelro m load options).2 := by
  rcases sealElf32GnuRelro_cases m load options with
    ⟨hsame, -⟩ | ⟨pages, left, hplanned, hleft, hsealed, -⟩
  · rw [hsame]
    exact .refl m
  · exact hplanned.preserves hleft hsealed

lemma sealElf32GnuRelro_reservation (m : MappedGuestMemory) (load : Elf32LoadResult)
    (options : Elf32RelroOptions) :
    (sealElf32GnuRelro m load options).2.reservation = m.reservation := by
  rcases sealElf32GnuRelro_cases m load options with ⟨hsame, -⟩ | ⟨pages, left, -, -, hsealed, -⟩
  · rw [hsame]
  · exact hsealed.reservation

/-- On success every page of the descriptors is `Read`. -/
lemma sealElf32GnuRelro_read {load : Elf32LoadResult} {options : Elf32RelroOptions}
    {sealedPages : UInt32} (h : (sealElf32GnuRelro m load options).1 = .ok sealedPages) :
    ∀ page ∈ m.relroPages load.relroSegments,
      (sealElf32GnuRelro m load options).2.mappedPermissions page = some .read := by
  rintro page ⟨relro, hrelro, hpage⟩
  rcases sealElf32GnuRelro_cases m load options with
    ⟨-, hempty⟩ | ⟨pages, left, hplanned, -, -, hread⟩
  · rw [hempty sealedPages h] at hrelro
    exact absurd hrelro List.not_mem_nil
  · exact hread sealedPages h page ((hplanned.mem_iff page).mpr ⟨relro, hrelro, hpage⟩)

lemma restoreRelroPages_kept (hI : KeptByOperations I) (failingPage : UInt32)
    (changed : List PlannedRelroPage) (h : I m) :
    I (restoreRelroPages failingPage changed m).2 := by
  induction changed generalizing m with
  | nil => exact h
  | cons prior changed ih =>
      have hprotect := hI.protect m prior.address m.pageSize prior.originalPermissions h
      rw [restoreRelroPages]
      rcases hp : m.protect prior.address m.pageSize prior.originalPermissions with ⟨_ | _, m'⟩
      · rw [hp] at hprotect
        exact hprotect
      · rw [hp] at hprotect
        dsimp only
        split
        · exact hprotect
        · exact ih hprotect

lemma sealRelroPages_kept (hI : KeptByOperations I) (changed pages : List PlannedRelroPage)
    (h : I m) : I (sealRelroPages changed pages m).2 := by
  induction pages generalizing changed m with
  | nil => exact h
  | cons page pages ih =>
      have hprotect := hI.protect m page.address m.pageSize .read h
      rw [sealRelroPages]
      split
      · exact ih changed h
      rcases hp : m.protect page.address m.pageSize .read with ⟨_ | _, m'⟩
      · rw [hp] at hprotect
        have hrestore := restoreRelroPages_kept hI page.address changed hprotect
        dsimp only
        rcases hr : restoreRelroPages page.address changed m' with ⟨_ | _, m''⟩
        · rw [hr] at hrestore
          exact hrestore
        · rw [hr] at hrestore
          exact hrestore
      · rw [hp] at hprotect
        exact ih _ hprotect

lemma sealElf32GnuRelro_kept (hI : KeptByOperations I) (h : I m) (load : Elf32LoadResult)
    (options : Elf32RelroOptions) : I (sealElf32GnuRelro m load options).2 := by
  rw [sealElf32GnuRelro]
  split
  · exact h
  cases planRelroPages m load.relroSegments options with
  | error failure => exact h
  | ok pages =>
      have hkept := sealRelroPages_kept hI [] pages h
      dsimp only
      rcases hrun : m.sealRelroPages [] pages with ⟨_ | _, m'⟩
      · rw [hrun] at hkept
        exact hkept
      · rw [hrun] at hkept
        exact hkept

end Seal

end LibA32Android

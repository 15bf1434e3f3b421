/-
RELRO metadata from the loader is always sealable.

The planner rounds the ranges and checks their pages against the segments, the loader
moves start and end, and the sealer derives its own bounds.  The three agree:

* `RelroOk`: what the sealer checks of a descriptor;
* `Prepared.relroOk`, `Prepared.relro_page`: the descriptors of a load satisfy it, and
  their pages are mapped and readable;
* `collectRelroPages_succeeds`, `sealRelroPages_refused`: with such descriptors the
  planning loop passes, and the sealing loop fails only at a host call of its own that
  is refused;
* `relro_sealable`: sealing the result of a load fails only at an executable page or at
  such a call.
-/
import LibA32Android.Elf.LoadEffect
import LibA32Android.Elf.Relro
import LibA32Android.Memory.HostCalls

namespace LibA32Android

open Foundations

/-! ### The descriptors of a load -/

/-- A descriptor whose exact range lies in its page-rounded mapping. -/
structure RelroOk (m : MappedGuestMemory) (relro : Elf32RelroSegment) : Prop where
  memory_ne : relro.memorySize ≠ 0
  range : m.IsPageRange relro.mappingStart relro.mappingSize
  start_le : relro.mappingStart.toNat ≤ relro.guestAddress.toNat
  end_le : relro.guestAddress.toNat + relro.memorySize.toNat
    ≤ relro.mappingStart.toNat + relro.mappingSize

/-- A relro range moved by the load bias. -/
def Elf32LoadPlanRelroSegment.Moved (loadBias : UInt32) (raw : Elf32LoadPlanRelroSegment)
    (relro : Elf32RelroSegment) : Prop :=
  relro.memorySize = raw.memorySize
    ∧ relro.guestAddress.toNat = raw.virtualAddress.toNat + loadBias.toNat
    ∧ relro.mappingStart.toNat = raw.mappingStart.toNat + loadBias.toNat
    ∧ relro.mappingSize = raw.mappingEnd - raw.mappingStart.toNat
    ∧ raw.mappingEnd + loadBias.toNat ≤ 2 ^ 32

lemma biasRelroSegment_ok {loadBias : UInt32} {raw : Elf32LoadPlanRelroSegment}
    {relro : Elf32RelroSegment} (h : biasRelroSegment loadBias raw = .ok relro) :
    raw.Moved loadBias relro := by
  simp only [biasRelroSegment, refuse_bind_ok_iff, not_or, not_lt] at h
  obtain ⟨⟨hguest, hstart, hend⟩, h⟩ := h
  cases h
  refine ⟨rfl, UInt32.toNat_ofNat_of_lt' (Nat.lt_of_le_of_lt hguest (by norm_num)),
    UInt32.toNat_ofNat_of_lt' (Nat.lt_of_le_of_lt hstart (by norm_num)), ?_, hend⟩
  show raw.mappingEnd + loadBias.toNat - (raw.mappingStart.toNat + loadBias.toNat) = _
  omega

section Descriptors

variable {m m' : MappedGuestMemory} {image : List UInt8} {options : Elf32LoadOptions}
  {plan : Elf32LoadPlan} {biased : BiasedPlan} {raw : Elf32LoadPlanRelroSegment}
  {relro : Elf32RelroSegment}

/-- The descriptors of an accepted image pass the checks of the sealer. -/
lemma Prepared.relroOk (h : Prepared m image options plan biased)
    (hmem : raw ∈ plan.relroSegments) (hmoved : raw.Moved biased.loadBias relro) :
    RelroOk m relro := by
  obtain ⟨hc, -⟩ := planElf32Load_ok h.planned
  rw [hc.relroSegments, List.mem_map] at hmem
  obtain ⟨header, hheader, rfl⟩ := hmem
  obtain ⟨hprog, hrelro⟩ := List.mem_filter.mp hheader
  rw [decide_eq_true_eq] at hrelro
  have hok := hc.relros header hprog hrelro
  obtain ⟨hstartDvd, hendDvd, hstart, hend, hlt⟩ := hok.mapping m.pageSize_dvd
  obtain ⟨hmemory, hguest, hmapping, hsize, hspace⟩ := hmoved
  have hguest' : relro.guestAddress.toNat
      = header.virtualAddress.toNat + biased.loadBias.toNat := hguest
  have hmemory' : relro.memorySize = header.memorySize := hmemory
  refine ⟨hmemory ▸ hok.memorySize_ne, ⟨by omega, ?_, ?_, by omega⟩, by omega, ?_⟩
  · rw [hmapping]
    exact Nat.dvd_add hstartDvd h.bias_dvd
  · rw [hsize]
    exact Nat.dvd_sub hendDvd hstartDvd
  · rw [hmemory']
    omega

/-- The pages of the descriptors of a loaded image are mapped and readable. -/
lemma Prepared.relro_page (h : Prepared m image options plan biased)
    (hloaded : m.Loaded image biased.plannedSegments m') (hmem : raw ∈ plan.relroSegments)
    (hmoved : raw.Moved biased.loadBias relro) {page : ℕ}
    (hpage : page ∈ m.pages relro.mappingStart relro.mappingSize) :
    ∃ permissions, m'.mappedPermissions page = some permissions
      ∧ hasPermission permissions .read = true := by
  obtain ⟨hc, -, -, -, hcheck⟩ := planElf32Load_ok h.planned
  have hrange := (h.relroOk hmem hmoved).range
  obtain ⟨-, -, hmapping, hsize, hspace⟩ := hmoved
  have hpos := m.pageSize_pos
  have hx := Nat.mul_div_cancel page hpos
  rw [← hx, hrange.mem_pages_iff] at hpage
  have hlen := hrange.pos
  -- the page as the planner saw it, before the bias
  have hstep : page * m.pageSize - biased.loadBias.toNat
      ∈ pageSteps m.pageSize raw.mappingStart.toNat raw.mappingEnd := by
    have hdvd : m.pageSize ∣ page * m.pageSize - relro.mappingStart.toNat :=
      Nat.dvd_sub (Nat.dvd_mul_left _ _) hrange.address_dvd
    obtain ⟨i, hi⟩ := hdvd
    refine (MappedGuestMemory.mem_pageSteps hpos).mpr ⟨i, ?_, by omega⟩
    rw [Nat.mul_comm i]
    omega
  obtain ⟨segment, hsegment, hne, hge, hle, hread⟩ := checkRelroSegments_ok hcheck hmem hstep
  have hfilter : segment ∈ plan.segments.filter (·.memorySize ≠ 0) :=
    List.mem_filter.mpr ⟨hsegment, decide_eq_true hne⟩
  rw [hc.filter_segments, List.mem_map] at hfilter
  obtain ⟨header, hheader, rfl⟩ := hfilter
  obtain ⟨-, hstart, hend⟩ := ProgramHeader.planned_toNat (h.fits header hheader)
  have hok := h.plannedOk hheader
  have hin : page ∈ m.pages (header.planned m.pageSize biased.loadBias).range.start
      (header.planned m.pageSize biased.loadBias).range.length := by
    rw [← hx, hok.mem_pages_iff]
    omega
  have hplanned : header.planned m.pageSize biased.loadBias ∈ biased.plannedSegments := by
    rw [h.segments]
    exact List.mem_map_of_mem hheader
  exact ⟨_, MappedGuestMemory.mappedPermissions_encode hok.permissions
    (hloaded.protect _ hplanned page hin), hread⟩

end Descriptors

/-! ### The loops of the sealer -/

/-- The pages that descriptors declare, before duplicates are removed. -/
def declaredRelroPages (pageSize : ℕ) (relroSegments : List Elf32RelroSegment) : ℕ :=
  (relroSegments.map fun relro => relro.mappingSize / pageSize).sum

namespace MappedGuestMemory

variable {m m' m₀ : MappedGuestMemory} {options : Elf32RelroOptions}

lemma collectRelroPages_succeeds {s : ℕ × List UInt32} {relro : Elf32RelroSegment}
    (h : RelroOk m relro)
    (hmax : s.1 + relro.mappingSize / m.pageSize ≤ options.maxPages.toNat) :
    ∃ s', collectRelroPages m.pageSize options s relro = .ok s'
      ∧ s'.1 = s.1 + relro.mappingSize / m.pageSize := by
  have hrange := h.range
  have hend := hrange.end_le
  have hstart := h.start_le
  have hle := h.end_le
  have hcount : 0 < relro.mappingSize / m.pageSize :=
    Nat.div_pos (Nat.le_of_dvd hrange.pos hrange.length_dvd) m.pageSize_pos
  have hwrap : (relro.mappingStart.toNat + relro.mappingSize) % 2 ^ 64
      = relro.mappingStart.toNat + relro.mappingSize := by omega
  refine ⟨(s.1 + relro.mappingSize / m.pageSize, s.2 ++ (pageSteps m.pageSize
    relro.mappingStart.toNat (relro.mappingStart.toNat + relro.mappingSize)).map UInt32.ofNat),
    ?_, rfl⟩
  simp only [collectRelroPages, refuse_bind_ok_iff, not_or, not_not, not_lt, hwrap]
  refine ⟨⟨h.memory_ne, hrange.pos.ne', Nat.mod_eq_zero_of_dvd hrange.address_dvd,
    Nat.mod_eq_zero_of_dvd hrange.length_dvd⟩, ⟨by omega, hend, hstart, hle⟩,
    ⟨hcount.ne', by omega, by omega⟩, ?_, rfl⟩
  rintro ⟨page, hpage, hlarge⟩
  obtain ⟨-, -, hlt⟩ := (mem_pageSteps m.pageSize_pos).mp hpage
  omega

/-- The planning loop passes within the limit. -/
lemma collect_succeeds {relroSegments : List Elf32RelroSegment}
    (h : ∀ relro ∈ relroSegments, RelroOk m relro) {s : ℕ × List UInt32}
    (hmax : s.1 + declaredRelroPages m.pageSize relroSegments ≤ options.maxPages.toNat) :
    ∃ s', relroSegments.foldlM (collectRelroPages m.pageSize options) s = .ok s' := by
  induction relroSegments generalizing s with
  | nil => exact ⟨s, rfl⟩
  | cons relro relroSegments ih =>
      rw [declaredRelroPages, List.map_cons, List.sum_cons, ← declaredRelroPages] at hmax
      obtain ⟨s', hstep, hcount⟩ := collectRelroPages_succeeds (h relro List.mem_cons_self)
        (show s.1 + relro.mappingSize / m.pageSize ≤ options.maxPages.toNat by omega)
      rw [List.foldlM_cons, hstep, ok_bind]
      exact ih (fun relro' hrelro => h relro' (List.mem_cons_of_mem _ hrelro)) (by omega)

/-- The planning of pages that are mapped and readable fails only at an executable one. -/
lemma planRelroPage_error {page : UInt32} {failure : Elf32RelroFailure}
    (h : planRelroPage m page = .error failure)
    (hread : ∃ permissions, m.mappedPermissions (m.pageIndex page) = some permissions
      ∧ hasPermission permissions .read = true) : failure.error = .executablePage := by
  obtain ⟨permissions, hpermissions, hread⟩ := hread
  rw [planRelroPage, isMapped_eq, permissions_eq, hpermissions, Option.isSome_some,
    Option.getD_some, refuse_neg (by decide), ok_bind] at h
  dsimp only at h
  rw [hread, refuse_neg (by decide), ok_bind] at h
  rcases bind_error_iff.mp h with h | ⟨-, -, h⟩
  · rw [← (refuse_eq_error.mp h).2]
    rfl
  · cases h

/-- Sealing keeps recorded pages mapped. -/
lemma SealedOn.mapped {changed : List PlannedRelroPage} {page : PlannedRelroPage}
    (h : m₀.SealedOn changed m) (hrecorded : m₀.Recorded page) :
    m.Mapped (m.pageIndex page.address) := by
  rw [mapped_iff_isSome, h.permissions, pageIndex, h.pageSize, readOnlyOn]
  split
  · rfl
  · rw [← pageIndex, hrecorded]
    rfl

/-- The rollback only adds host calls. -/
lemma restoreRelroPages_hostCalls_le (failingPage : UInt32) (changed : List PlannedRelroPage)
    (m : MappedGuestMemory) :
    m.hostCalls ≤ (restoreRelroPages failingPage changed m).2.hostCalls := by
  induction changed generalizing m with
  | nil => exact le_rfl
  | cons prior changed ih =>
      have hprotect : m.hostCalls
          ≤ (m.protect prior.address m.pageSize prior.originalPermissions).2.hostCalls :=
        protect_hostCalls_le
      rw [restoreRelroPages]
      generalize m.protect prior.address m.pageSize prior.originalPermissions = restored
        at hprotect ⊢
      obtain ⟨_ | _, m'⟩ := restored
      · exact hprotect
      · dsimp only
        split
        · exact hprotect
        · exact le_trans hprotect (ih m')

/-- The sealing loop fails only if the host refuses one of the calls that it makes. -/
lemma sealRelroPages_refused {changed pages : List PlannedRelroPage}
    {failure : Elf32RelroFailure}
    (h : m₀.SealedOn changed m) (hdvd : ∀ page ∈ pages, m₀.pageSize ∣ page.address.toNat)
    (hrecorded : ∀ page ∈ pages, m₀.Recorded page)
    (hrun : sealRelroPages changed pages m = (.error failure, m')) :
    ∃ n, m.hostCalls ≤ n ∧ n < m'.hostCalls ∧ m₀.host n .protectMprotect = false := by
  induction pages generalizing changed m with
  | nil => cases hrun
  | cons page pages ih =>
      have hdvd' := fun page' hpage => hdvd page' (List.mem_cons_of_mem page hpage)
      have hrecorded' := fun page' hpage => hrecorded page' (List.mem_cons_of_mem page hpage)
      rw [sealRelroPages] at hrun
      split at hrun
      · exact ih h hdvd' hrecorded' hrun
      · have hrange : m.IsPageRange page.address m.pageSize :=
          isPageRange_page (h.pageSize ▸ hdvd page List.mem_cons_self)
        have hmapped : ∀ index ∈ m.pages page.address m.pageSize, m.Mapped index := by
          intro index hindex
          rw [pages_page, Set.mem_singleton_iff] at hindex
          rw [hindex]
          exact h.mapped (hrecorded page List.mem_cons_self)
        have hvalid : validPermissions .read = true := by decide
        obtain ⟨hanswer, hcalls⟩ := protect_answer hrange hvalid hmapped
        rcases hprotect : m.protect page.address m.pageSize .read with ⟨_ | _, m₁⟩
        · -- the refused call is the one of this page; the rollback comes after it
          rw [hprotect] at hanswer hcalls hrun
          have hrestore := restoreRelroPages_hostCalls_le page.address changed m₁
          have hend : (restoreRelroPages page.address changed m₁).2 = m' := by
            dsimp only at hrun
            split at hrun
            · rename_i heq
              cases hrun
              rw [heq]
            · rename_i heq
              cases hrun
              rw [heq]
          rw [hend] at hrestore
          refine ⟨m.hostCalls, le_rfl, ?_, ?_⟩
          · exact Nat.lt_of_lt_of_le (hcalls ▸ Nat.lt_succ_self _) hrestore
          · rw [← h.host]
            exact hanswer.symm
        · rw [hprotect] at hcalls hrun
          obtain ⟨n, hle, hlt, hrefused⟩ := ih (h.cons hprotect) hdvd' hrecorded' hrun
          have hstep : m₁.hostCalls = m.hostCalls + 1 := hcalls
          exact ⟨n, by omega, hlt, hrefused⟩

/-- Planning descriptors whose pages are mapped and readable fails only at an executable
page. -/
lemma planRelroPages_error {relroSegments : List Elf32RelroSegment} (hne : relroSegments ≠ [])
    (hok : ∀ relro ∈ relroSegments, RelroOk m relro)
    (hread : ∀ page ∈ m.relroPages relroSegments, ∃ permissions,
      m.mappedPermissions page = some permissions ∧ hasPermission permissions .read = true)
    (hmax : declaredRelroPages m.pageSize relroSegments ≤ options.maxPages.toNat)
    {failure : Elf32RelroFailure} (h : planRelroPages m relroSegments options = .error failure) :
    failure.error = .executablePage := by
  have hoptions : options.maxPages ≠ 0 := by
    intro hzero
    obtain ⟨relro, hrelro⟩ := List.exists_mem_of_ne_nil relroSegments hne
    have hrange := (hok relro hrelro).range
    have hcount : 0 < relro.mappingSize / m.pageSize :=
      Nat.div_pos (Nat.le_of_dvd hrange.pos hrange.length_dvd) m.pageSize_pos
    have hle : relro.mappingSize / m.pageSize ≤ declaredRelroPages m.pageSize relroSegments :=
      List.le_sum_of_mem (List.mem_map_of_mem hrelro)
    rw [hzero, UInt32.toNat_zero] at hmax
    omega
  obtain ⟨s, hs⟩ := collect_succeeds hok (s := (0, [])) (by rwa [Nat.zero_add])
  rw [planRelroPages, refuse_neg hoptions, ok_bind, refuse_neg m.pageSize_pos.ne', ok_bind, hs,
    ok_bind] at h
  obtain ⟨page, hpage, hfailed⟩ := exists_of_mapM_error h
  exact planRelroPage_error hfailed
    (hread _ (((collected_of_foldlM hs).mem_iff page).mp (mem_sortedPages.mp hpage)).2)

end MappedGuestMemory

/-! ### Sealing a loaded image -/

/-- The descriptors of a successful load, and the pages they cover. -/
lemma loadElf32_relroSegments {m m' : MappedGuestMemory} {image : List UInt8}
    {options : Elf32LoadOptions} {result : Elf32LoadResult}
    (h : loadElf32 m image options = (.ok result, m')) :
    m'.pageSize = m.pageSize
      ∧ (∀ relro ∈ result.relroSegments, RelroOk m relro)
      ∧ ∀ page ∈ m.relroPages result.relroSegments, ∃ permissions,
          m'.mappedPermissions page = some permissions
            ∧ hasPermission permissions .read = true := by
  obtain ⟨plan, biased, hplan, hbiased, rfl, hloaded⟩ := loadElf32_biased h
  have hprep := Prepared.of_biasPlan hplan hbiased
  simp only [biasPlan, bind_ok_iff] at hbiased
  obtain ⟨loadBias, -, entry, -, dynamicSegment, -, relroSegments, hrelro, plannedSegments, -,
    hret⟩ := hbiased
  cases hret
  have hmoved (relro : Elf32RelroSegment) (hmem : relro ∈ relroSegments) :
      ∃ raw ∈ plan.relroSegments, raw.Moved loadBias relro := by
    obtain ⟨raw, hraw, hbias⟩ := exists_of_forall₂_right (mapM_ok_iff_forall₂.mp hrelro) hmem
    exact ⟨raw, hraw, biasRelroSegment_ok hbias⟩
  refine ⟨hloaded.frame.pageSize, fun relro hmem => ?_, ?_⟩
  · obtain ⟨raw, hraw, hmoved⟩ := hmoved relro hmem
    exact hprep.relroOk hraw hmoved
  · rintro page ⟨relro, hmem, hpage⟩
    obtain ⟨raw, hraw, hmoved⟩ := hmoved relro hmem
    exact hprep.relro_page hloaded hraw hmoved hpage

/-- **RELRO metadata from the loader is always sealable.**  After a successful load and
changes of nothing but bytes, with a limit of at least the declared pages, sealing fails
only at an executable page or when the host refuses one of the `protect` calls that this
sealing makes. -/
theorem relro_sealable {memory m' m'' : MappedGuestMemory} {image : List UInt8}
    {options : Elf32LoadOptions} {result : Elf32LoadResult}
    (hload : loadElf32 memory image options = (.ok result, m'))
    (hsize : m''.pageSize = m'.pageSize) (hstate : m''.pageState = m'.pageState)
    {relroOptions : Elf32RelroOptions}
    (hmax : declaredRelroPages m''.pageSize result.relroSegments ≤ relroOptions.maxPages.toNat)
    {failure : Elf32RelroFailure}
    (h : (sealElf32GnuRelro m'' result relroOptions).1 = .error failure) :
    failure.error = .executablePage
      ∨ (failure.error = .protectFailed ∨ failure.error = .rollbackFailed)
        ∧ ∃ n, m''.hostCalls ≤ n ∧ n < (sealElf32GnuRelro m'' result relroOptions).2.hostCalls
          ∧ m''.host n .protectMprotect = false := by
  obtain ⟨hsize', hok, hread⟩ := loadElf32_relroSegments hload
  have hpageSize : m''.pageSize = memory.pageSize := hsize.trans hsize'
  have hok' (relro : Elf32RelroSegment) (hmem : relro ∈ result.relroSegments) :
      RelroOk m'' relro := by
    obtain ⟨hne, hrange, hstart, hend⟩ := hok relro hmem
    exact ⟨hne, MappedGuestMemory.isPageRange_congr hpageSize hrange, hstart, hend⟩
  have hread' (page : ℕ) (hpage : page ∈ m''.relroPages result.relroSegments) :
      ∃ permissions, m''.mappedPermissions page = some permissions
        ∧ hasPermission permissions .read = true := by
    obtain ⟨relro, hmem, hpage⟩ := hpage
    rw [MappedGuestMemory.pages_congr hpageSize] at hpage
    rw [MappedGuestMemory.mappedPermissions, hstate, ← MappedGuestMemory.mappedPermissions]
    exact hread page ⟨relro, hmem, hpage⟩
  rw [sealElf32GnuRelro] at h ⊢
  by_cases hempty : result.relroSegments.isEmpty = true
  · rw [if_pos hempty] at h
    cases h
  rw [if_neg hempty] at h ⊢
  rcases hplan : planRelroPages m'' result.relroSegments relroOptions with failure' | pages
  · rw [hplan] at h
    cases h
    exact Or.inl (MappedGuestMemory.planRelroPages_error (mt List.isEmpty_iff.mpr hempty) hok'
      hread' hmax hplan)
  · rw [hplan] at h
    dsimp only
    have hplanned := MappedGuestMemory.plannedPages_of_ok hplan
    have hstart : m''.SealedOn [] m'' := MappedGuestMemory.SealedOn.nil_iff.mpr (.refl m'')
    have hleaves := MappedGuestMemory.sealRelroPages_leaves hstart hplanned.nodup hplanned.recorded
    rcases hrun : m''.sealRelroPages [] pages with ⟨failure' | _, m⟩
    · simp only [hrun] at h ⊢
      cases h
      rw [hrun] at hleaves
      exact Or.inr ⟨hleaves.imp And.left And.left,
        MappedGuestMemory.sealRelroPages_refused hstart hplanned.address_dvd hplanned.recorded hrun⟩
    · simp only [hrun] at h
      cases h

/-- An `ET_DYN` image with one executable segment and a relro range in it. -/
def relroImage : List UInt8 :=
  [0x7f, 0x45, 0x4c, 0x46, 1, 1, 1, 0, 0, 0, 0, 0, 0, 0, 0, 0,
   3, 0, 40, 0, 1, 0, 0, 0, 0, 0, 0, 0, 52, 0, 0, 0,
   0, 0, 0, 0, 0, 0, 0, 0, 52, 0, 32, 0, 2, 0, 0, 0, 0, 0, 0, 0,
   1, 0, 0, 0, 0, 0, 0, 0, 0, 0, 0, 0, 0, 0, 0, 0,
   116, 0, 0, 0, 116, 0, 0, 0, 5, 0, 0, 0, 0, 16, 0, 0,
   0x52, 0xe5, 0x74, 0x64, 0, 0, 0, 0, 0, 0, 0, 0, 0, 0, 0, 0,
   16, 0, 0, 0, 16, 0, 0, 0, 4, 0, 0, 0, 1, 0, 0, 0]

/-- Its relro range is refused as executable. -/
theorem relro_sealable_executable : ∃ result m' failure,
    loadElf32 vacantMemory relroImage { dynamicBase := some 0x10000 } = (.ok result, m')
      ∧ (sealElf32GnuRelro m' result ⟨1⟩).1 = .error failure
      ∧ failure.error = .executablePage := by
  let result : Elf32LoadResult :=
    { loadBias := 0x10000
      segments := [⟨0x10000, 116, 116, 0x10000, 0x1000, .read ||| .execute⟩]
      relroSegments := [⟨0x10000, 16, 0x10000, 0x1000⟩] }
  have hresult : (loadElf32 vacantMemory relroImage { dynamicBase := some 0x10000 }).1
      = .ok result := by decide +kernel
  have hload : loadElf32 vacantMemory relroImage { dynamicBase := some 0x10000 }
      = (.ok result, (loadElf32 vacantMemory relroImage { dynamicBase := some 0x10000 }).2) := by
    rw [← hresult, Prod.mk.eta]
  have hsealed : (sealElf32GnuRelro
      (loadElf32 vacantMemory relroImage { dynamicBase := some 0x10000 }).2 result ⟨1⟩).1
      = .error (relroFailure .executablePage (some 0x10000)) := by
    decide +kernel
  obtain ⟨plan, biased, -, -, hloaded⟩ := loadElf32_ok hload
  refine ⟨result, _, _, hload, hsealed, ?_⟩
  rcases relro_sealable hload rfl rfl (by decide +kernel) hsealed
    with hexecutable | ⟨-, n, -, -, hhost⟩
  · exact hexecutable
  · rw [hloaded.frame.host] at hhost
    cases hhost

end LibA32Android

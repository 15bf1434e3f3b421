/-
The biased plan of an accepted image.

* `ProgramHeader.planned`: the segment the loader plans for a non-empty `PT_LOAD`
  header;
* `BiasOk`, `planLoadBias_ok`: what an accepted load bias satisfies;
* `PlannedOk`: what the passes over the memory rely on;
* `prepareElf32Load_ok`: everything the passes start from, read off the
  planner's specification.
-/
import LibA32Android.Elf.Loader
import LibA32Android.Elf.PlanShape

namespace LibA32Android

open Foundations

/-! ### The biased plan -/

/-- A segment moved by the load bias. -/
def Elf32LoadPlanSegment.biased (loadBias : UInt32) (raw : Elf32LoadPlanSegment) :
    PlannedSegment where
  raw := raw
  guestAddress := UInt32.ofNat (raw.virtualAddress.toNat + loadBias.toNat)
  mappingStart := UInt32.ofNat (raw.mappingStart.toNat + loadBias.toNat)
  mappingEnd := raw.mappingEnd + loadBias.toNat

/-- The planned segment of a header. -/
def ProgramHeader.planned (pageSize : ℕ) (loadBias : UInt32) (header : ProgramHeader) :
    PlannedSegment :=
  (header.segment pageSize).biased loadBias

/-- A segment that stays inside the address space when it is moved. -/
def Elf32LoadPlanSegment.Fits (loadBias : UInt32) (raw : Elf32LoadPlanSegment) : Prop :=
  raw.virtualAddress.toNat + loadBias.toNat < 2 ^ 32
    ∧ raw.mappingStart.toNat + loadBias.toNat < 2 ^ 32
    ∧ raw.mappingEnd + loadBias.toNat ≤ 2 ^ 32

lemma biasSegment_ok_iff {loadBias : UInt32} (raw : Elf32LoadPlanSegment)
    (planned : PlannedSegment) : biasSegment loadBias raw = .ok planned
      ↔ raw.Fits loadBias ∧ planned = raw.biased loadBias := by
  simp only [biasSegment, refuse_bind_ok_iff, not_or, not_lt, Elf32LoadPlanSegment.Fits]
  refine and_congr (by omega) ⟨fun h => ?_, fun h => ?_⟩
  · cases h
    rfl
  · rw [h]
    rfl

/-- What an accepted load bias satisfies. -/
inductive BiasOk (pageSize : ℕ) (plan : Elf32LoadPlan) (options : Elf32LoadOptions)
    (loadBias : UInt32) : Prop
  | executable (type : plan.type = .executable) (bias : loadBias = 0)
  | dynamic (type : plan.type = .dynamic) (base : UInt32)
      (given : options.dynamicBase = some base) (base_dvd : pageSize ∣ base.toNat)
      (bias : loadBias.toNat + plan.minimumPage = base.toNat)
      (fits : plan.maximumPageEnd + loadBias.toNat ≤ 2 ^ 32)
      (aligned : 1 < plan.requiredLoadBiasAlignment →
        plan.requiredLoadBiasAlignment ∣ loadBias.toNat)

lemma planLoadBias_ok {pageSize : ℕ} {plan : Elf32LoadPlan} {options : Elf32LoadOptions}
    {loadBias : UInt32} (h : planLoadBias pageSize plan options = .ok loadBias) :
    BiasOk pageSize plan options loadBias := by
  rw [planLoadBias] at h
  split at h
  · rename_i htype
    cases h
    exact .executable htype rfl
  · cases h
  · rename_i base htype hgiven
    simp only [refuse_bind_ok_iff, not_or, not_lt, not_and, not_not] at h
    obtain ⟨hpage, hlow, ⟨-, hfits⟩, halign, hbias⟩ := h
    cases hbias
    have hbase := base.toNat_lt
    have hlt : base.toNat - plan.minimumPage < 2 ^ 32 := by omega
    have heq := UInt32.toNat_ofNat_of_lt' hlt
    refine .dynamic htype base hgiven (Nat.dvd_of_mod_eq_zero hpage) ?_ ?_ ?_
    · omega
    · omega
    · rw [heq]
      exact fun h1 => Nat.dvd_of_mod_eq_zero (halign h1)

/-! ### Planned segments -/

/-- What the passes rely on: the segment lies in its page-aligned mapping, and
its file bytes lie in the image. -/
structure PlannedOk (pageSize : ℕ) (image : List UInt8) (planned : PlannedSegment) : Prop where
  start_dvd : pageSize ∣ planned.mappingStart.toNat
  end_dvd : pageSize ∣ planned.mappingEnd
  start_lt : planned.mappingStart.toNat < planned.mappingEnd
  end_le : planned.mappingEnd ≤ 2 ^ 32
  start_le : planned.mappingStart.toNat ≤ planned.guestAddress.toNat
  memory_le : planned.guestAddress.toNat + planned.raw.memorySize.toNat ≤ planned.mappingEnd
  file_le : planned.raw.fileSize.toNat ≤ planned.raw.memorySize.toNat
  image_le : planned.raw.offset.toNat + planned.raw.fileSize.toNat ≤ image.length
  permissions : MappedGuestMemory.validPermissions planned.raw.permissions = true

/-- Segment flags decode to permissions that the memory accepts. -/
lemma validPermissions_of_decode {flags : UInt32} {permissions : MemoryPermission}
    (h : decodeSegmentPermissions flags = some permissions) :
    MappedGuestMemory.validPermissions permissions = true := by
  rw [decodeSegmentPermissions] at h
  generalize ((flags &&& 4) != 0) = read at h
  generalize ((flags &&& 2) != 0) = write at h
  generalize ((flags &&& 1) != 0) = execute at h
  cases read <;> cases write <;> cases execute <;>
    first
    | (cases h; decide)
    | cases h

section Planned

variable {pageSize : ℕ} {image : List UInt8} {header : ProgramHeader} {loadBias : UInt32}

/-- The numbers of a planned segment that fits. -/
lemma ProgramHeader.planned_toNat (hfits : (header.segment pageSize).Fits loadBias) :
    (header.planned pageSize loadBias).guestAddress.toNat
        = header.virtualAddress.toNat + loadBias.toNat
      ∧ (header.planned pageSize loadBias).mappingStart.toNat
        = (header.segment pageSize).mappingStart.toNat + loadBias.toNat
      ∧ (header.planned pageSize loadBias).mappingEnd
        = (header.segment pageSize).mappingEnd + loadBias.toNat :=
  ⟨UInt32.toNat_ofNat_of_lt' hfits.1, UInt32.toNat_ofNat_of_lt' hfits.2.1, rfl⟩

lemma LoadHeaderOk.plannedOk (h : LoadHeaderOk pageSize image header)
    (hne : header.memorySize ≠ 0) (hps : pageSize ∣ 2 ^ 32) (hbias : pageSize ∣ loadBias.toNat)
    (hfits : (header.segment pageSize).Fits loadBias) :
    PlannedOk pageSize image (header.planned pageSize loadBias) := by
  obtain ⟨hguest, hstart, hend⟩ := ProgramHeader.planned_toNat hfits
  obtain ⟨h1, h2, h3, -, h5, -, -, h8⟩ := h.mapping hps hne
  obtain ⟨permissions, hperm⟩ := Option.isSome_iff_exists.mp h.permissions
  refine ⟨?_, ?_, ?_, ?_, ?_, ?_, h.fileSize_le, h.file_le, ?_⟩
  · rw [hstart]
    exact Nat.dvd_add h1 hbias
  · rw [hend]
    exact Nat.dvd_add h2 hbias
  · omega
  · exact hfits.2.2
  · omega
  · rw [hguest, hend]
    show header.virtualAddress.toNat + loadBias.toNat + header.memorySize.toNat ≤ _
    omega
  · show MappedGuestMemory.validPermissions ((decodeSegmentPermissions header.flags).getD .none)
      = true
    rw [hperm]
    exact validPermissions_of_decode hperm

end Planned

/-- The mapping of a planned segment is a page range. -/
lemma PlannedOk.isPageRange {m : MappedGuestMemory} {image : List UInt8}
    {planned : PlannedSegment} (h : PlannedOk m.pageSize image planned) :
    m.IsPageRange planned.range.start planned.range.length := by
  have hlt := h.start_lt
  have hle := h.end_le
  refine ⟨?_, h.start_dvd, Nat.dvd_sub h.end_dvd h.start_dvd, ?_⟩
  · show 0 < planned.mappingEnd - planned.mappingStart.toNat
    omega
  · show planned.mappingStart.toNat + (planned.mappingEnd - planned.mappingStart.toNat) ≤ 2 ^ 32
    omega

/-- The page of an address of the mapping. -/
lemma PlannedOk.mem_pages_iff {m : MappedGuestMemory} {image : List UInt8}
    {planned : PlannedSegment} (h : PlannedOk m.pageSize image planned) {x : ℕ} :
    x / m.pageSize ∈ m.pages planned.range.start planned.range.length
      ↔ planned.mappingStart.toNat ≤ x ∧ x < planned.mappingEnd := by
  have hlt := h.start_lt
  rw [h.isPageRange.mem_pages_iff]
  show planned.mappingStart.toNat ≤ x
    ∧ x < planned.mappingStart.toNat + (planned.mappingEnd - planned.mappingStart.toNat) ↔ _
  omega

/-! ### What the loader prepares -/

/-- Everything the passes start from. -/
structure Prepared (memory : MappedGuestMemory) (image : List UInt8)
    (options : Elf32LoadOptions) (plan : Elf32LoadPlan) (biased : BiasedPlan) : Prop where
  planned : planElf32Load memory.pageSize image = .ok plan
  bias : BiasOk memory.pageSize plan options biased.loadBias
  segments : biased.plannedSegments
    = (mappedHeaders image).map (·.planned memory.pageSize biased.loadBias)
  fits : ∀ header ∈ mappedHeaders image,
    (header.segment memory.pageSize).Fits biased.loadBias

lemma Prepared.of_biasPlan {memory : MappedGuestMemory} {image : List UInt8}
    {options : Elf32LoadOptions} {plan : Elf32LoadPlan} {biased : BiasedPlan}
    (hplan : planElf32Load memory.pageSize image = .ok plan)
    (h : biasPlan memory.pageSize plan options = .ok biased) :
    Prepared memory image options plan biased := by
  simp only [biasPlan, bind_ok_iff] at h
  obtain ⟨loadBias, hbias, entry, -, dynamicSegment, -, relroSegments, -, plannedSegments,
    hsegments, hret⟩ := h
  cases hret
  rw [(planElf32Load_ok hplan).1.filter_segments, mapM_ok_iff biasSegment_ok_iff] at hsegments
  obtain ⟨hfits, rfl⟩ := hsegments
  refine ⟨hplan, planLoadBias_ok hbias, by simp [ProgramHeader.planned], ?_⟩
  exact fun header hmem => hfits _ (List.mem_map_of_mem hmem)

lemma prepareElf32Load_ok {memory : MappedGuestMemory} {image : List UInt8}
    {options : Elf32LoadOptions} {biased : BiasedPlan}
    (h : prepareElf32Load memory image options = .ok biased) :
    ∃ plan, Prepared memory image options plan biased := by
  simp only [prepareElf32Load, bind_ok_iff, refuse_ok_iff, Bool.not_eq_true] at h
  obtain ⟨plan, hplan, biased', hbiased, ⟨⟩, -, hret⟩ := h
  cases hret
  exact ⟨plan, .of_biasPlan hplan hbiased⟩

namespace Prepared

variable {memory : MappedGuestMemory} {image : List UInt8} {options : Elf32LoadOptions}
  {plan : Elf32LoadPlan} {biased : BiasedPlan}

/-- The load bias is a multiple of the page size. -/
lemma bias_dvd (h : Prepared memory image options plan biased) :
    memory.pageSize ∣ biased.loadBias.toNat := by
  obtain ⟨hc, hmin, -⟩ := planElf32Load_ok h.planned
  cases h.bias with
  | executable htype hzero =>
      rw [hzero]
      exact dvd_zero _
  | dynamic htype base hgiven hdvd hbias hfits halign =>
      have hlow := (hc.bounds memory.pageSize_dvd hmin).1
      exact (Nat.dvd_add_left hlow).mp (hbias ▸ hdvd)

lemma plannedOk (h : Prepared memory image options plan biased) {header : ProgramHeader}
    (hmem : header ∈ mappedHeaders image) :
    PlannedOk memory.pageSize image (header.planned memory.pageSize biased.loadBias) := by
  obtain ⟨hin, hload, hne⟩ := mem_mappedHeaders.mp hmem
  exact ((planElf32Load_ok h.planned).1.loads header hin hload).plannedOk hne memory.pageSize_dvd
    h.bias_dvd (h.fits header hmem)

lemma allOk (h : Prepared memory image options plan biased) :
    ∀ planned ∈ biased.plannedSegments, PlannedOk memory.pageSize image planned := by
  intro planned hp
  rw [h.segments] at hp
  obtain ⟨header, hmem, rfl⟩ := List.mem_map.mp hp
  exact h.plannedOk hmem

/-- The mappings of an accepted image do not meet. -/
lemma ranges_disjoint (h : Prepared memory image options plan biased) :
    (biased.plannedSegments.map (·.range)).Pairwise fun r r' =>
      Disjoint (memory.pages r.start r.length) (memory.pages r'.start r'.length) := by
  obtain ⟨hc, -, -, hoverlap, -⟩ := planElf32Load_ok h.planned
  have hsegments := segments_disjoint hoverlap ?_
  · rw [hc.filter_segments, List.pairwise_map] at hsegments
    rw [h.segments, List.map_map, List.pairwise_map]
    refine hsegments.imp_of_mem fun {header header'} hmem hmem' hapart => ?_
    have hok := h.plannedOk hmem
    have hok' := h.plannedOk hmem'
    obtain ⟨-, hstart, hend⟩ := ProgramHeader.planned_toNat (h.fits header hmem)
    obtain ⟨-, hstart', hend'⟩ := ProgramHeader.planned_toNat (h.fits header' hmem')
    rw [Set.disjoint_left]
    intro page hp hp'
    rw [Function.comp_apply, ← Nat.mul_div_cancel page memory.pageSize_pos,
      hok.mem_pages_iff] at hp
    rw [Function.comp_apply, ← Nat.mul_div_cancel page memory.pageSize_pos,
      hok'.mem_pages_iff] at hp'
    omega
  · intro segment hmem hne
    rw [hc.segments, List.mem_map] at hmem
    obtain ⟨header, hmem, rfl⟩ := hmem
    obtain ⟨hprog, hload⟩ := List.mem_filter.mp hmem
    rw [decide_eq_true_eq] at hload
    exact ((hc.loads header hprog hload).mapping memory.pageSize_dvd hne).2.2.2.2.2.2.2.le

end Prepared

/-- The conflict check looks at every page of every mapping. -/
lemma conflicts_eq_false_iff {memory : MappedGuestMemory} {image : List UInt8}
    {segments : List PlannedSegment}
    (hall : ∀ planned ∈ segments, PlannedOk memory.pageSize image planned) :
    memory.conflicts segments = false
      ↔ ∀ page ∈ memory.rangePages (segments.map (·.range)), ¬memory.Mapped page := by
  have hone : ∀ planned ∈ segments,
      ((pageSteps memory.pageSize planned.mappingStart.toNat planned.mappingEnd).any fun page =>
          memory.isMapped (UInt32.ofNat page)) = false
        ↔ ∀ page ∈ memory.pages planned.range.start planned.range.length,
            ¬memory.Mapped page := by
    intro planned hmem
    have hok := hall planned hmem
    have hend : planned.mappingEnd = planned.range.start.toNat + planned.range.length :=
      (Nat.add_sub_cancel' hok.start_lt.le).symm
    rw [hend]
    exact hok.isPageRange.steps_unmapped_iff
  rw [MappedGuestMemory.conflicts, List.any_eq_false]
  constructor
  · rintro h page ⟨r, hr, hp⟩
    obtain ⟨planned, hmem, rfl⟩ := List.mem_map.mp hr
    exact (hone planned hmem).mp (Bool.not_eq_true _ ▸ h planned hmem) page hp
  · intro h planned hmem
    rw [Bool.not_eq_true, hone planned hmem]
    exact fun page hp => h page ⟨planned.range, List.mem_map_of_mem hmem, hp⟩

/-- A load that is prepared finds its mappings free. -/
lemma prepareElf32Load_free {memory : MappedGuestMemory} {image : List UInt8}
    {options : Elf32LoadOptions} {biased : BiasedPlan}
    (h : prepareElf32Load memory image options = .ok biased) :
    ∀ page ∈ memory.rangePages (biased.plannedSegments.map (·.range)), ¬memory.Mapped page := by
  obtain ⟨_, hprep⟩ := prepareElf32Load_ok h
  simp only [prepareElf32Load, bind_ok_iff, refuse_ok_iff, Bool.not_eq_true] at h
  obtain ⟨_, -, _, -, ⟨⟩, hconflicts, hret⟩ := h
  cases hret
  exact (conflicts_eq_false_iff hprep.allOk).mp hconflicts

end LibA32Android

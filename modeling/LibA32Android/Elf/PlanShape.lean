/-
What a successful plan says about the program headers.

The header loop is read off once, as an invariant over the headers done so far
(`Collected`, `collected_step`); the theorems about the loader and about
placement use it through `planElf32Load_ok` and never look at the loop again.

* `alignDown_spec`, `alignUp_spec`: rounding to pages;
* `ProgramHeader.segment`, `LoadHeaderOk`: the segment planned for a `PT_LOAD`
  header, and what the loop checked of the header;
* `mappedHeaders`: the non-empty `PT_LOAD` headers;
* `planElf32Load_ok`: the plan is the one collected from all headers, and the
  three checks over all headers passed;
* `segments_disjoint`: the neighbour check on the sorted segments makes the
  page ranges of all segments pairwise disjoint.
-/
import LibA32Android.Elf.LoadPlan

namespace LibA32Android

open Foundations

/-! ### Rounding -/

section Rounding

variable {value alignment result : ℕ}

/-- Rounding down gives the multiple of the alignment just below. -/
lemma alignDown_spec (value : ℕ) (ha : 0 < alignment) :
    alignment ∣ alignDown value alignment ∧ alignDown value alignment ≤ value
      ∧ value < alignDown value alignment + alignment := by
  have h1 := Nat.mod_lt value ha
  have h2 : value % alignment ≤ value := Nat.mod_le _ _
  rw [alignDown]
  exact ⟨Nat.dvd_sub_mod value, by omega, by omega⟩

/-- Rounding up gives the multiple of the alignment just above, inside the
address space. -/
lemma alignUp_spec (ha : alignment ∣ 2 ^ 32) (h : alignUp value alignment = some result) :
    alignment ∣ result ∧ value ≤ result ∧ result < value + alignment ∧ result ≤ 2 ^ 32 := by
  have hpos : 0 < alignment := Nat.pos_of_dvd_of_pos ha (by norm_num)
  have hle : alignment ≤ 2 ^ 32 := Nat.le_of_dvd (by norm_num) ha
  have hmod := Nat.mod_lt value hpos
  simp only [alignUp] at h
  split at h
  · rename_i h0
    split at h
    · cases h
      exact ⟨Nat.dvd_of_mod_eq_zero h0, le_rfl, by omega, by assumption⟩
    · simp at h
  · rename_i h0
    split at h
    · simp at h
    · rename_i hle
      cases h
      refine ⟨?_, by omega, by omega, by omega⟩
      have hdm := Nat.div_add_mod value alignment
      have hsum : value + (alignment - value % alignment)
          = alignment * (value / alignment + 1) := by
        rw [Nat.mul_add, Nat.mul_one]
        omega
      exact ⟨_, hsum⟩

/-- Rounding up to a divisor of the address space stays inside it. -/
lemma alignUp_isSome (ha : alignment ∣ 2 ^ 32) (hv : value ≤ 2 ^ 32) :
    ∃ result, alignUp value alignment = some result := by
  have hpos : 0 < alignment := Nat.pos_of_dvd_of_pos ha (by norm_num)
  have hmod := Nat.mod_lt value hpos
  simp only [alignUp, if_pos hv]
  split
  · exact ⟨value, rfl⟩
  · rename_i h0
    -- the next multiple of the alignment is at most the multiple `2 ^ 32`
    obtain ⟨c, hc⟩ := ha
    have hdm := Nat.div_add_mod value alignment
    have hlt : alignment * (value / alignment) < alignment * c := by omega
    have hle : alignment * (value / alignment + 1) ≤ alignment * c :=
      Nat.mul_le_mul_left _ (Nat.lt_of_mul_lt_mul_left hlt)
    rw [Nat.mul_add, Nat.mul_one] at hle
    rw [if_neg (by omega)]
    exact ⟨_, rfl⟩

end Rounding

/-- The bit test recognises powers of two. -/
lemma isPowerOfTwo_spec {value : UInt32} (h : isPowerOfTwo value = true) :
    ∃ k, value.toNat = 2 ^ k := by
  simp only [isPowerOfTwo, Bool.and_eq_true, bne_iff_ne, ne_eq, beq_iff_eq] at h
  obtain ⟨hne, hand⟩ := h
  have hpos : value.toNat ≠ 0 := fun h0 => hne (UInt32.toNat_inj.mp h0)
  have hsub : (value - 1).toNat = value.toNat - 1 := by
    refine UInt32.toNat_sub_of_le _ _ ?_
    rw [UInt32.le_iff_toNat_le]
    exact Nat.one_le_iff_ne_zero.mpr hpos
  have h0 : value.toNat &&& (value.toNat - 1) = 0 := by
    rw [← hsub, ← UInt32.toNat_and, hand]
    rfl
  exact Nat.ne_zero_and_sub_one_eq_zero_iff_isPowerOfTwo.mp ⟨hpos, h0⟩

/-! ### Planned segments -/

/-- The segment planned for a `PT_LOAD` header. -/
def ProgramHeader.segment (pageSize : ℕ) (header : ProgramHeader) : Elf32LoadPlanSegment where
  offset := header.offset
  virtualAddress := header.virtualAddress
  fileSize := header.fileSize
  memorySize := header.memorySize
  alignment := header.alignment
  permissions := (decodeSegmentPermissions header.flags).getD .none
  mappingStart :=
    if header.memorySize = 0 then 0
    else UInt32.ofNat (alignDown header.virtualAddress.toNat pageSize)
  mappingEnd :=
    if header.memorySize = 0 then 0
    else (alignUp (header.virtualAddress.toNat + header.memorySize.toNat) pageSize).getD 0

/-- What the loop checks of a `PT_LOAD` header. -/
structure LoadHeaderOk (pageSize : ℕ) (image : List UInt8) (header : ProgramHeader) : Prop where
  fileSize_le : header.fileSize.toNat ≤ header.memorySize.toNat
  file_le : header.offset.toNat + header.fileSize.toNat ≤ image.length
  end_le : header.virtualAddress.toNat + header.memorySize.toNat ≤ 2 ^ 32
  alignment : 1 < header.alignment → isPowerOfTwo header.alignment = true
    ∧ header.virtualAddress % header.alignment = header.offset % header.alignment
  permissions : (decodeSegmentPermissions header.flags).isSome
  rounds : header.memorySize ≠ 0 →
    (alignUp (header.virtualAddress.toNat + header.memorySize.toNat) pageSize).isSome

/-- The mapping of a planned segment: whole pages around its bytes. -/
lemma LoadHeaderOk.mapping {pageSize : ℕ} {image : List UInt8} {header : ProgramHeader}
    (h : LoadHeaderOk pageSize image header) (hps : pageSize ∣ 2 ^ 32)
    (hne : header.memorySize ≠ 0) :
    pageSize ∣ (header.segment pageSize).mappingStart.toNat
      ∧ pageSize ∣ (header.segment pageSize).mappingEnd
      ∧ (header.segment pageSize).mappingStart.toNat ≤ header.virtualAddress.toNat
      ∧ header.virtualAddress.toNat < (header.segment pageSize).mappingStart.toNat + pageSize
      ∧ header.virtualAddress.toNat + header.memorySize.toNat
          ≤ (header.segment pageSize).mappingEnd
      ∧ (header.segment pageSize).mappingEnd
          < header.virtualAddress.toNat + header.memorySize.toNat + pageSize
      ∧ (header.segment pageSize).mappingEnd ≤ 2 ^ 32
      ∧ (header.segment pageSize).mappingStart.toNat < (header.segment pageSize).mappingEnd := by
  obtain ⟨mappingEnd, hend⟩ := Option.isSome_iff_exists.mp (h.rounds hne)
  obtain ⟨hu1, hu2, hu3, hu4⟩ := alignUp_spec hps hend
  obtain ⟨hd1, hd2, hd3⟩ := alignDown_spec header.virtualAddress.toNat
    (Nat.pos_of_dvd_of_pos hps (by norm_num))
  have hlt := header.virtualAddress.toNat_lt
  have hpos : 0 < header.memorySize.toNat := by
    rw [Nat.pos_iff_ne_zero]
    exact fun h0 => hne (UInt32.toNat_inj.mp h0)
  have hstart : (header.segment pageSize).mappingStart.toNat
      = alignDown header.virtualAddress.toNat pageSize := by
    have hfits : alignDown header.virtualAddress.toNat pageSize < 2 ^ 32 := by omega
    simp only [ProgramHeader.segment, if_neg hne]
    exact UInt32.toNat_ofNat_of_lt' hfits
  have hstop : (header.segment pageSize).mappingEnd = mappingEnd := by
    simp only [ProgramHeader.segment, if_neg hne, hend, Option.getD_some]
  rw [hstart, hstop]
  exact ⟨hd1, hu1, hd2, hd3, hu2, hu3, hu4, by omega⟩

/-- The range planned for a `PT_GNU_RELRO` header. -/
def ProgramHeader.relroSegment (pageSize : ℕ) (header : ProgramHeader) :
    Elf32LoadPlanRelroSegment where
  virtualAddress := header.virtualAddress
  memorySize := header.memorySize
  mappingStart := UInt32.ofNat (alignDown header.virtualAddress.toNat pageSize)
  mappingEnd :=
    (alignUp (header.virtualAddress.toNat + header.memorySize.toNat) pageSize).getD 0

/-- What the loop checks of a `PT_GNU_RELRO` header. -/
structure RelroHeaderOk (pageSize : ℕ) (header : ProgramHeader) : Prop where
  memorySize_ne : header.memorySize ≠ 0
  end_le : header.virtualAddress.toNat + header.memorySize.toNat ≤ 2 ^ 32
  rounds : (alignUp (header.virtualAddress.toNat + header.memorySize.toNat) pageSize).isSome

/-- The mapping of a planned relro range: whole pages around its bytes. -/
lemma RelroHeaderOk.mapping {pageSize : ℕ} {header : ProgramHeader}
    (h : RelroHeaderOk pageSize header) (hps : pageSize ∣ 2 ^ 32) :
    pageSize ∣ (header.relroSegment pageSize).mappingStart.toNat
      ∧ pageSize ∣ (header.relroSegment pageSize).mappingEnd
      ∧ (header.relroSegment pageSize).mappingStart.toNat ≤ header.virtualAddress.toNat
      ∧ header.virtualAddress.toNat + header.memorySize.toNat
          ≤ (header.relroSegment pageSize).mappingEnd
      ∧ (header.relroSegment pageSize).mappingStart.toNat
          < (header.relroSegment pageSize).mappingEnd := by
  obtain ⟨mappingEnd, hup⟩ := Option.isSome_iff_exists.mp h.rounds
  obtain ⟨hendDvd, hle, -, -⟩ := alignUp_spec hps hup
  obtain ⟨hstartDvd, hstart, -⟩ := alignDown_spec header.virtualAddress.toNat
    (Nat.pos_of_dvd_of_pos hps (by norm_num))
  have hne : header.memorySize.toNat ≠ 0 := fun h0 => h.memorySize_ne (UInt32.toNat_inj.mp h0)
  have hstartLt : alignDown header.virtualAddress.toNat pageSize < 2 ^ 32 :=
    hstart.trans_lt header.virtualAddress.toNat_lt
  have hstartEq : (header.relroSegment pageSize).mappingStart.toNat
      = alignDown header.virtualAddress.toNat pageSize := UInt32.toNat_ofNat_of_lt' hstartLt
  have hendEq : (header.relroSegment pageSize).mappingEnd = mappingEnd := by
    simp only [ProgramHeader.relroSegment, hup, Option.getD_some]
  rw [hstartEq, hendEq]
  exact ⟨hstartDvd, hendDvd, hstart, hle, by omega⟩

/-- The dynamic segment planned for a `PT_DYNAMIC` header. -/
def ProgramHeader.dynamicSegment (header : ProgramHeader) : Elf32LoadPlanDynamicSegment where
  offset := header.offset
  virtualAddress := header.virtualAddress
  fileSize := header.fileSize
  memorySize := header.memorySize

/-- What the loop checks of a `PT_DYNAMIC` header. -/
structure DynamicHeaderOk (image : List UInt8) (header : ProgramHeader) : Prop where
  memorySize_ne : header.memorySize ≠ 0
  fileSize_le : header.fileSize.toNat ≤ header.memorySize.toNat
  file_le : header.offset.toNat + header.fileSize.toNat ≤ image.length
  end_le : header.virtualAddress.toNat + header.memorySize.toNat ≤ 2 ^ 32

/-- A `PT_LOAD` header with a non-empty memory range. -/
def ProgramHeader.IsMapped (header : ProgramHeader) : Prop :=
  header.isLoad ∧ header.memorySize ≠ 0

instance (header : ProgramHeader) : Decidable header.IsMapped :=
  inferInstanceAs (Decidable (_ ∧ _))

/-- The non-empty `PT_LOAD` headers of an image. -/
def mappedHeaders (image : List UInt8) : List ProgramHeader :=
  (programHeaders image).filter fun header => header.IsMapped

lemma mem_mappedHeaders {image : List UInt8} {header : ProgramHeader} :
    header ∈ mappedHeaders image
      ↔ header ∈ programHeaders image ∧ header.isLoad ∧ header.memorySize ≠ 0 := by
  rw [mappedHeaders, List.mem_filter, decide_eq_true_eq]
  rfl

/-! ### One round of the loop -/

section Round

variable {pageSize : ℕ} {image : List UInt8} {plan plan' : Elf32LoadPlan}
  {header : ProgramHeader}

lemma planDynamicHeader_ok_iff : planDynamicHeader image plan header = .ok plan'
    ↔ plan.dynamicSegment = none ∧ DynamicHeaderOk image header
      ∧ plan' = { plan with dynamicSegment := some header.dynamicSegment } := by
  simp only [planDynamicHeader, refuse_bind_ok_iff, not_lt]
  constructor
  · rintro ⟨hfirst, hne, hfile, hbounds, hend, hplan⟩
    cases hplan
    exact ⟨by simpa using hfirst, ⟨hne, UInt32.not_lt.mp hfile, hbounds, hend⟩, rfl⟩
  · rintro ⟨hfirst, hok, rfl⟩
    exact ⟨by simp [hfirst], hok.memorySize_ne, UInt32.not_lt.mpr hok.fileSize_le, hok.file_le,
      hok.end_le, rfl⟩

lemma planRelroHeader_ok_iff : planRelroHeader pageSize plan header = .ok plan'
    ↔ RelroHeaderOk pageSize header
      ∧ plan' = { plan with
          relroSegments := plan.relroSegments ++ [header.relroSegment pageSize] } := by
  simp only [planRelroHeader, refuse_bind_ok_iff, not_lt]
  constructor
  · rintro ⟨hne, hend, hplan⟩
    split at hplan
    · simp at hplan
    · rename_i mappingEnd hup
      cases hplan
      refine ⟨⟨hne, hend, by simp [hup]⟩, ?_⟩
      simp [ProgramHeader.relroSegment, hup]
  · rintro ⟨hok, rfl⟩
    obtain ⟨mappingEnd, hup⟩ := Option.isSome_iff_exists.mp hok.rounds
    refine ⟨hok.memorySize_ne, hok.end_le, ?_⟩
    simp [ProgramHeader.relroSegment, hup, pure, Except.pure]

/-- The plan after a `PT_LOAD` header. -/
def Elf32LoadPlan.withLoad (pageSize : ℕ) (plan : Elf32LoadPlan) (header : ProgramHeader) :
    Elf32LoadPlan :=
  { plan with
    requiredLoadBiasAlignment :=
      if 1 < header.alignment then max plan.requiredLoadBiasAlignment header.alignment.toNat
      else plan.requiredLoadBiasAlignment
    minimumPage :=
      if header.memorySize = 0 then plan.minimumPage
      else min plan.minimumPage (header.segment pageSize).mappingStart.toNat
    maximumPageEnd :=
      if header.memorySize = 0 then plan.maximumPageEnd
      else max plan.maximumPageEnd (header.segment pageSize).mappingEnd
    segments := plan.segments ++ [header.segment pageSize] }

lemma planLoadHeader_ok_iff : planLoadHeader pageSize image plan header = .ok plan'
    ↔ LoadHeaderOk pageSize image header ∧ plan' = plan.withLoad pageSize header := by
  simp only [planLoadHeader, refuse_bind_ok_iff, not_lt]
  constructor
  · rintro ⟨hfile, hbounds, hend, halign, hplan⟩
    have halign' : 1 < header.alignment → isPowerOfTwo header.alignment = true
        ∧ header.virtualAddress % header.alignment = header.offset % header.alignment := by
      intro h1
      simpa [h1] using halign
    have hle : header.fileSize.toNat ≤ header.memorySize.toNat := UInt32.not_lt.mp hfile
    split at hplan
    · simp at hplan
    rename_i permissions hperm
    split at hplan
    · rename_i hne
      split at hplan
      · simp at hplan
      · rename_i mappingEnd hup
        cases hplan
        refine ⟨⟨hle, hbounds, hend, halign', by simp [hperm], fun _ => by simp [hup]⟩, ?_⟩
        simp [Elf32LoadPlan.withLoad, ProgramHeader.segment, hne, hperm, hup]
    · rename_i h0
      rw [not_not] at h0
      cases hplan
      refine ⟨⟨hle, hbounds, hend, halign', by simp [hperm], fun hne => absurd h0 hne⟩, ?_⟩
      simp [Elf32LoadPlan.withLoad, ProgramHeader.segment, h0, hperm]
  · rintro ⟨hok, rfl⟩
    obtain ⟨permissions, hperm⟩ := Option.isSome_iff_exists.mp hok.permissions
    refine ⟨UInt32.not_lt.mpr hok.fileSize_le, hok.file_le, hok.end_le, ?_, ?_⟩
    · rintro ⟨h1, h2 | h2⟩
      · simp [(hok.alignment h1).1] at h2
      · exact h2 (hok.alignment h1).2
    · by_cases h0 : header.memorySize = 0
      · simp [Elf32LoadPlan.withLoad, ProgramHeader.segment, h0, hperm, pure, Except.pure]
      · obtain ⟨mappingEnd, hup⟩ := Option.isSome_iff_exists.mp (hok.rounds h0)
        simp [Elf32LoadPlan.withLoad, ProgramHeader.segment, h0, hperm, hup, pure, Except.pure]

end Round

/-! ### The whole loop -/

/-- What the plan holds after the headers `headers` have been processed. -/
structure Collected (pageSize : ℕ) (image : List UInt8) (headers : List ProgramHeader)
    (plan : Elf32LoadPlan) : Prop where
  type : plan.type = imageType image
  entry : plan.entry = decodeU32Le image 24
  loads : ∀ header ∈ headers, header.isLoad → LoadHeaderOk pageSize image header
  segments : plan.segments
    = (headers.filter fun header => header.isLoad).map (·.segment pageSize)
  minimum_le : ∀ header ∈ headers, header.IsMapped →
    plan.minimumPage ≤ (header.segment pageSize).mappingStart.toNat
  minimum_attained : plan.minimumPage = 2 ^ 32 ∨ ∃ header ∈ headers, header.IsMapped
    ∧ plan.minimumPage = (header.segment pageSize).mappingStart.toNat
  le_maximum : ∀ header ∈ headers, header.IsMapped →
    (header.segment pageSize).mappingEnd ≤ plan.maximumPageEnd
  maximum_attained : plan.maximumPageEnd = 0 ∨ ∃ header ∈ headers, header.IsMapped
    ∧ plan.maximumPageEnd = (header.segment pageSize).mappingEnd
  le_alignment : ∀ header ∈ headers, header.isLoad → 1 < header.alignment →
    header.alignment.toNat ≤ plan.requiredLoadBiasAlignment
  alignment_attained : plan.requiredLoadBiasAlignment = 1 ∨ ∃ header ∈ headers, header.isLoad
    ∧ 1 < header.alignment ∧ plan.requiredLoadBiasAlignment = header.alignment.toNat
  relros : ∀ header ∈ headers, header.isGnuRelro → RelroHeaderOk pageSize header
  relroSegments : plan.relroSegments
    = (headers.filter fun header => header.isGnuRelro).map (·.relroSegment pageSize)
  dynamic : ∀ dynamic, plan.dynamicSegment = some dynamic → ∃ header ∈ headers,
    header.isDynamic ∧ DynamicHeaderOk image header ∧ dynamic = header.dynamicSegment

section Loop

variable {pageSize : ℕ} {image : List UInt8} {plan plan' : Elf32LoadPlan}
  {headers : List ProgramHeader} {header : ProgramHeader}

lemma ProgramHeader.not_isLoad_of_isDynamic (h : header.isDynamic) : ¬header.isLoad := by
  intro h'
  rw [ProgramHeader.isDynamic] at h
  rw [ProgramHeader.isLoad, h] at h'
  exact absurd h' (by decide)

lemma ProgramHeader.not_isLoad_of_isGnuRelro (h : header.isGnuRelro) : ¬header.isLoad := by
  intro h'
  rw [ProgramHeader.isGnuRelro] at h
  rw [ProgramHeader.isLoad, h] at h'
  exact absurd h' (by decide)

lemma ProgramHeader.not_isGnuRelro_of_isDynamic (h : header.isDynamic) :
    ¬header.isGnuRelro := by
  intro h'
  rw [ProgramHeader.isDynamic] at h
  rw [ProgramHeader.isGnuRelro, h] at h'
  exact absurd h' (by decide)

/-- A header that is not `PT_LOAD` leaves the part of the plan that is about
`PT_LOAD` headers alone. -/
lemma Collected.append_of_not_isLoad (hc : Collected pageSize image headers plan)
    (hload : ¬header.isLoad) {relroSegments : List Elf32LoadPlanRelroSegment}
    {dynamicSegment : Option Elf32LoadPlanDynamicSegment}
    (hrelros : header.isGnuRelro → RelroHeaderOk pageSize header)
    (hrelroSegments : relroSegments = ((headers ++ [header]).filter
      fun header => header.isGnuRelro).map (·.relroSegment pageSize))
    (hdynamic : ∀ dynamic, dynamicSegment = some dynamic → ∃ header' ∈ headers ++ [header],
      header'.isDynamic ∧ DynamicHeaderOk image header' ∧ dynamic = header'.dynamicSegment) :
    Collected pageSize image (headers ++ [header])
      { plan with relroSegments := relroSegments, dynamicSegment := dynamicSegment } := by
  have hmapped : ¬header.IsMapped := fun h => hload h.1
  refine ⟨hc.type, hc.entry, ?_, ?_, ?_, ?_, ?_, ?_, ?_, ?_, ?_, hrelroSegments, hdynamic⟩
  · simpa [or_imp, forall_and, hload] using hc.loads
  · simpa [hload] using hc.segments
  · simpa [or_imp, forall_and, hmapped] using hc.minimum_le
  · simpa [or_and_right, exists_or, hmapped] using hc.minimum_attained
  · simpa [or_imp, forall_and, hmapped] using hc.le_maximum
  · simpa [or_and_right, exists_or, hmapped] using hc.maximum_attained
  · simpa [or_imp, forall_and, hload] using hc.le_alignment
  · simpa [or_and_right, exists_or, hload] using hc.alignment_attained
  · simpa [or_imp, forall_and] using ⟨hc.relros, hrelros⟩

/-- A `PT_LOAD` header adds its segment and enters the bounds. -/
lemma Collected.withLoad (hc : Collected pageSize image headers plan) (hload : header.isLoad)
    (hrelro : ¬header.isGnuRelro) (hok : LoadHeaderOk pageSize image header) :
    Collected pageSize image (headers ++ [header]) (plan.withLoad pageSize header) := by
  have hmem : ∀ {P : ProgramHeader → Prop}, (∃ h ∈ headers, P h) → ∃ h ∈ headers ++ [header], P h :=
    fun ⟨h, hh, hP⟩ => ⟨h, List.mem_append_left _ hh, hP⟩
  refine ⟨hc.type, hc.entry, ?_, ?_, ?_, ?_, ?_, ?_, ?_, ?_, ?_, ?_, fun d hd => hmem (hc.dynamic d hd)⟩
  · simpa [or_imp, forall_and] using ⟨hc.loads, fun _ => hok⟩
  · simp [Elf32LoadPlan.withLoad, hload, hc.segments]
  · intro h hh hm
    rcases List.mem_append.mp hh with hh | hh
    · have := hc.minimum_le h hh hm
      simp only [Elf32LoadPlan.withLoad]
      split <;> omega
    · cases List.mem_singleton.mp hh
      simp only [Elf32LoadPlan.withLoad, if_neg hm.2]
      omega
  · simp only [Elf32LoadPlan.withLoad]
    split
    · exact hc.minimum_attained.imp_right hmem
    · rename_i hne
      rcases min_choice plan.minimumPage (header.segment pageSize).mappingStart.toNat with h | h
      · rw [h]
        exact hc.minimum_attained.imp_right hmem
      · rw [h]
        exact Or.inr ⟨header, by simp, ⟨hload, hne⟩, rfl⟩
  · intro h hh hm
    rcases List.mem_append.mp hh with hh | hh
    · have := hc.le_maximum h hh hm
      simp only [Elf32LoadPlan.withLoad]
      split <;> omega
    · cases List.mem_singleton.mp hh
      simp only [Elf32LoadPlan.withLoad, if_neg hm.2]
      omega
  · simp only [Elf32LoadPlan.withLoad]
    split
    · exact hc.maximum_attained.imp_right hmem
    · rename_i hne
      rcases max_choice plan.maximumPageEnd (header.segment pageSize).mappingEnd with h | h
      · rw [h]
        exact hc.maximum_attained.imp_right hmem
      · rw [h]
        exact Or.inr ⟨header, by simp, ⟨hload, hne⟩, rfl⟩
  · intro h hh hl ha
    rcases List.mem_append.mp hh with hh | hh
    · have := hc.le_alignment h hh hl ha
      simp only [Elf32LoadPlan.withLoad]
      split <;> omega
    · cases List.mem_singleton.mp hh
      simp only [Elf32LoadPlan.withLoad, if_pos ha]
      omega
  · simp only [Elf32LoadPlan.withLoad]
    split
    · rename_i ha
      rcases max_choice plan.requiredLoadBiasAlignment header.alignment.toNat with h | h
      · rw [h]
        exact hc.alignment_attained.imp_right hmem
      · rw [h]
        exact Or.inr ⟨header, by simp, hload, ha, rfl⟩
    · exact hc.alignment_attained.imp_right hmem
  · simpa [or_imp, forall_and, hrelro] using hc.relros
  · simpa [Elf32LoadPlan.withLoad, hrelro] using hc.relroSegments

/-- One round of the loop. -/
lemma collected_step (hc : Collected pageSize image headers plan)
    (h : planProgramHeader pageSize image plan header = .ok plan') :
    Collected pageSize image (headers ++ [header]) plan' := by
  rw [planProgramHeader] at h
  have hold : ∀ dynamic, plan.dynamicSegment = some dynamic → ∃ h ∈ headers ++ [header],
      h.isDynamic ∧ DynamicHeaderOk image h ∧ dynamic = h.dynamicSegment := by
    intro dynamic hd
    obtain ⟨h, hh, hP⟩ := hc.dynamic dynamic hd
    exact ⟨h, List.mem_append_left _ hh, hP⟩
  split at h
  · rename_i hdyn
    obtain ⟨-, hok, rfl⟩ := planDynamicHeader_ok_iff.mp h
    have hrelro := ProgramHeader.not_isGnuRelro_of_isDynamic hdyn
    refine hc.append_of_not_isLoad (ProgramHeader.not_isLoad_of_isDynamic hdyn)
      (fun hr => absurd hr hrelro) (by simpa [hrelro] using hc.relroSegments) ?_
    intro dynamic hd
    cases hd
    exact ⟨header, by simp, hdyn, hok, rfl⟩
  split at h
  · rename_i hrelro
    obtain ⟨hok, rfl⟩ := planRelroHeader_ok_iff.mp h
    exact hc.append_of_not_isLoad (ProgramHeader.not_isLoad_of_isGnuRelro hrelro) (fun _ => hok)
      (by simp [hrelro, hc.relroSegments]) hold
  split at h
  · rename_i hrelro hload
    obtain ⟨hok, rfl⟩ := planLoadHeader_ok_iff.mp h
    exact hc.withLoad hload hrelro hok
  · rename_i hrelro hload
    cases h
    exact hc.append_of_not_isLoad hload (fun hr => absurd hr hrelro)
      (by simpa [hrelro] using hc.relroSegments) hold

/-- The loop over all program headers collects them. -/
lemma collected_of_planHeaders {headers : List ProgramHeader}
    (h : headers.foldlM (planProgramHeader pageSize image)
    { type := imageType image, entry := decodeU32Le image 24, minimumPage := 2 ^ 32 } = .ok plan) :
    Collected pageSize image headers plan := by
  refine foldlM_ok_induction (Collected pageSize image)
    (fun _ _ _ _ hc hstep => collected_step hc hstep) headers [] _ _ ?_ h
  constructor <;> simp

/-- **The plan of an accepted image**: what the loop collected from all program
headers, some page is mapped, and the checks over all headers passed. -/
theorem planElf32Load_ok (h : planElf32Load pageSize image = .ok plan) :
    Collected pageSize image (programHeaders image) plan ∧ plan.minimumPage ≠ 2 ^ 32
      ∧ checkDynamicSegment plan = .ok () ∧ checkPageOverlap plan = .ok ()
      ∧ checkRelroSegments pageSize plan = .ok () := by
  simp only [planElf32Load, bind_ok_iff, refuse_ok_iff, not_or] at h
  obtain ⟨⟨⟩, -, collected, hloop, ⟨⟩, ⟨-, hmin⟩, ⟨⟩, hdynamic, ⟨⟩, hoverlap, ⟨⟩, hrelro, hplan⟩ := h
  cases hplan
  exact ⟨collected_of_planHeaders hloop, hmin, hdynamic, hoverlap, hrelro⟩

/-- The non-empty segments of the plan are those of the non-empty `PT_LOAD`
headers. -/
lemma Collected.filter_segments (hc : Collected pageSize image (programHeaders image) plan) :
    plan.segments.filter (·.memorySize ≠ 0)
      = (mappedHeaders image).map (·.segment pageSize) := by
  rw [hc.segments, mappedHeaders, List.filter_map, List.filter_filter]
  congr 1
  refine List.filter_congr fun header _ => ?_
  rw [Bool.eq_iff_iff]
  simp [ProgramHeader.IsMapped, ProgramHeader.segment, and_comm]

/-- Every alignment divides the largest one. -/
lemma Collected.alignment_dvd (hc : Collected pageSize image headers plan)
    (hmem : header ∈ headers) (hload : header.isLoad) (halign : 1 < header.alignment) :
    1 < plan.requiredLoadBiasAlignment
      ∧ header.alignment.toNat ∣ plan.requiredLoadBiasAlignment := by
  have hle := hc.le_alignment header hmem hload halign
  have hone : 1 < header.alignment.toNat := halign
  obtain ⟨k, hk⟩ := isPowerOfTwo_spec ((hc.loads header hmem hload).alignment halign).1
  rcases hc.alignment_attained with h1 | ⟨largest, hmem', hload', halign', hreq⟩
  · omega
  · obtain ⟨k', hk'⟩ := isPowerOfTwo_spec ((hc.loads largest hmem' hload').alignment halign').1
    refine ⟨by omega, ?_⟩
    rw [hreq, hk, hk'] at hle ⊢
    exact Nat.pow_dvd_pow 2 ((Nat.pow_le_pow_iff_right (by norm_num)).mp hle)

/-- The lowest and the highest page of the plan. -/
lemma Collected.bounds (hc : Collected pageSize image headers plan) (hps : pageSize ∣ 2 ^ 32)
    (hmin : plan.minimumPage ≠ 2 ^ 32) :
    pageSize ∣ plan.minimumPage ∧ plan.minimumPage < plan.maximumPageEnd
      ∧ pageSize ∣ plan.maximumPageEnd ∧ plan.maximumPageEnd ≤ 2 ^ 32 := by
  obtain ⟨low, hlow, hlowMapped, heq⟩ := hc.minimum_attained.resolve_left hmin
  have hlowOk := (hc.loads low hlow hlowMapped.1).mapping hps hlowMapped.2
  have hle := hc.le_maximum low hlow hlowMapped
  obtain ⟨high, hhigh, hhighMapped, heq'⟩ := hc.maximum_attained.resolve_left (by omega)
  have hhighOk := (hc.loads high hhigh hhighMapped.1).mapping hps hhighMapped.2
  refine ⟨heq ▸ hlowOk.1, by omega, heq' ▸ hhighOk.2.1, by omega⟩

end Loop

/-! ### The checks over all headers -/

section Checks

variable {pageSize : ℕ} {image : List UInt8} {plan : Elf32LoadPlan}

/-- The neighbour check makes the mappings of all non-empty segments pairwise
disjoint. -/
lemma segments_disjoint (h : checkPageOverlap plan = .ok ())
    (hpos : ∀ segment ∈ plan.segments, segment.memorySize ≠ 0 →
      segment.mappingStart.toNat ≤ segment.mappingEnd) :
    (plan.segments.filter (·.memorySize ≠ 0)).Pairwise fun s t =>
      s.mappingEnd ≤ t.mappingStart.toNat ∨ t.mappingEnd ≤ s.mappingStart.toNat := by
  have hperm : plan.ordered.Perm (plan.segments.filter (·.memorySize ≠ 0)) :=
    List.perm_insertionSort _ _
  have hle : ∀ s ∈ plan.ordered, s.mappingStart.toNat ≤ s.mappingEnd := by
    intro s hs
    have hs' := hperm.mem_iff.mp hs
    simp only [List.mem_filter, decide_eq_true_eq] at hs'
    exact hpos s hs'.1 hs'.2
  simp only [checkPageOverlap, refuse_ok_iff, Bool.not_eq_true, List.any_eq_false,
    decide_eq_true_eq, not_lt] at h
  -- `s` before `t` is transitive once it says that `t` is a proper range
  have hordered : plan.ordered.Pairwise fun s t =>
      s.mappingEnd ≤ t.mappingStart.toNat ∧ t.mappingStart.toNat ≤ t.mappingEnd :=
    pairwise_of_neighbours (fun _ _ _ h1 h2 => ⟨by omega, h2.2⟩) fun p hp =>
      ⟨h p hp, hle p.2 (List.mem_of_mem_tail (List.of_mem_zip hp).2)⟩
  exact (hordered.imp fun h => Or.inl h.1).perm hperm fun h => h.symm

/-- The dynamic segment lies in a non-empty `PT_LOAD` segment. -/
lemma checkDynamicSegment_ok (h : checkDynamicSegment plan = .ok ())
    {dynamic : Elf32LoadPlanDynamicSegment} (hdynamic : plan.dynamicSegment = some dynamic) :
    ∃ segment ∈ plan.segments, segment.memorySize ≠ 0
      ∧ segment.virtualAddress.toNat ≤ dynamic.virtualAddress.toNat
      ∧ dynamic.virtualAddress.toNat + dynamic.memorySize.toNat
          ≤ segment.virtualAddress.toNat + segment.memorySize.toNat := by
  simp only [checkDynamicSegment, hdynamic, refuse_bind_ok_iff, Bool.not_eq_true,
    Bool.not_eq_false'] at h
  obtain ⟨segment, hmem, hcontains⟩ := List.any_eq_true.mp h.1
  simp only [Elf32LoadPlanSegment.containsDynamic, Bool.and_eq_true, bne_iff_ne,
    decide_eq_true_eq] at hcontains
  exact ⟨segment, hmem, hcontains.1.1, hcontains.1.2, hcontains.2⟩

/-- Every page of a relro range lies in the mapping of a non-empty readable `PT_LOAD`
segment. -/
lemma checkRelroSegments_ok (h : checkRelroSegments pageSize plan = .ok ())
    {relro : Elf32LoadPlanRelroSegment} (hmem : relro ∈ plan.relroSegments) {page : ℕ}
    (hpage : page ∈ pageSteps pageSize relro.mappingStart.toNat relro.mappingEnd) :
    ∃ segment ∈ plan.segments, segment.memorySize ≠ 0 ∧ segment.mappingStart.toNat ≤ page
      ∧ page + pageSize ≤ segment.mappingEnd ∧ hasPermission segment.permissions .read = true := by
  have hcheck := forM_ok_iff.mp (forM_ok_iff.mp h relro hmem) page hpage
  rw [checkRelroPage] at hcheck
  split at hcheck
  · cases hcheck
  · rename_i segment hfind
    have hsome := List.find?_some hfind
    simp only [Bool.and_eq_true, bne_iff_ne, decide_eq_true_eq] at hsome
    rw [refuse_ok_iff, Bool.not_eq_true, Bool.not_eq_false'] at hcheck
    exact ⟨segment, List.mem_of_find?_eq_some hfind, hsome.1.1, hsome.1.2, hsome.2, hcheck⟩

end Checks

end LibA32Android

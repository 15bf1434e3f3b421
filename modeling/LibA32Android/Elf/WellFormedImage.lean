/-
Which images the planner accepts.

`WellFormedImage` describes an image by its header fields, in ordinary
arithmetic: sums and remainders of naturals, bits of the flags, and page-rounded
ranges as sets of addresses.  It names none of the planner's loops, and in
particular neither the sort nor the first match by which the planner decides
disjointness and containment.

* `pageRounded`, `ProgramHeader.pageRange`: a range rounded outwards to pages;
* `planHeaders_ok_iff`: the header loop as a property of all headers;
* `checkPageOverlap_ok_iff`: sorted neighbours against all pairs;
* `ProgramHeader.eq_of_mem_pageRange`: over disjoint mappings the first match is
  the only one;
* `planElf32Load_ok_iff`: the planner accepts exactly the well-formed images.
-/
import LibA32Android.Elf.PlanShape
import LibA32Android.Memory.Mapped

namespace LibA32Android

open Foundations

/-! ### The description -/

/-- The addresses of `[start, start + length)`, rounded outwards to whole pages. -/
def pageRounded (pageSize start length : ℕ) : Set ℕ :=
  Set.Ico (start / pageSize * pageSize) ((start + length + pageSize - 1) / pageSize * pageSize)

namespace ProgramHeader

/-- The page-rounded memory range of a header. -/
def pageRange (pageSize : ℕ) (header : ProgramHeader) : Set ℕ :=
  pageRounded pageSize header.virtualAddress.toNat header.memorySize.toNat

/-- `PF_R`, `PF_W` and `PF_X`. -/
def readable (header : ProgramHeader) : Bool := header.flags.toNat.testBit 2

@[inherit_doc readable]
def writable (header : ProgramHeader) : Bool := header.flags.toNat.testBit 1

@[inherit_doc readable]
def executable (header : ProgramHeader) : Bool := header.flags.toNat.testBit 0

/-- A well-formed `PT_LOAD` header. -/
structure WellFormedLoad (image : List UInt8) (header : ProgramHeader) : Prop where
  fileSize_le : header.fileSize.toNat ≤ header.memorySize.toNat
  file_le : header.offset.toNat + header.fileSize.toNat ≤ image.length
  end_le : header.virtualAddress.toNat + header.memorySize.toNat ≤ 2 ^ 32
  alignment : header.alignment.toNat ≤ 1 ∨ (∃ k, header.alignment.toNat = 2 ^ k)
    ∧ header.virtualAddress.toNat ≡ header.offset.toNat [MOD header.alignment.toNat]
  flags : (header.writable ∨ header.executable → header.readable)
    ∧ ¬(header.writable ∧ header.executable)

/-- The memory range of a `PT_DYNAMIC` header inside a readable `PT_LOAD`, whose
file bytes it shares. -/
structure LiesIn (dynamic load : ProgramHeader) : Prop where
  readable : load.readable
  start_le : load.virtualAddress.toNat ≤ dynamic.virtualAddress.toNat
  end_le : dynamic.virtualAddress.toNat + dynamic.memorySize.toNat
    ≤ load.virtualAddress.toNat + load.memorySize.toNat
  file : dynamic.fileSize.toNat ≠ 0 →
    dynamic.virtualAddress.toNat - load.virtualAddress.toNat + dynamic.fileSize.toNat
        ≤ load.fileSize.toNat
      ∧ load.offset.toNat + (dynamic.virtualAddress.toNat - load.virtualAddress.toNat)
          = dynamic.offset.toNat

/-- A well-formed `PT_DYNAMIC` header. -/
structure WellFormedDynamic (image : List UInt8) (header : ProgramHeader) : Prop where
  nonempty : header.memorySize.toNat ≠ 0
  fileSize_le : header.fileSize.toNat ≤ header.memorySize.toNat
  file_le : header.offset.toNat + header.fileSize.toNat ≤ image.length
  inside : ∃ load ∈ mappedHeaders image, header.LiesIn load

/-- A well-formed `PT_GNU_RELRO` header: every page of its page-rounded range is
a page of a readable `PT_LOAD`. -/
structure WellFormedRelro (pageSize : ℕ) (image : List UInt8) (header : ProgramHeader) :
    Prop where
  nonempty : header.memorySize.toNat ≠ 0
  end_le : header.virtualAddress.toNat + header.memorySize.toNat ≤ 2 ^ 32
  inside : ∀ page, page * pageSize ∈ header.pageRange pageSize →
    ∃ load ∈ mappedHeaders image, load.readable
      ∧ Set.Ico (page * pageSize) ((page + 1) * pageSize) ⊆ load.pageRange pageSize

end ProgramHeader

/-- The fields of the ELF header, and a program header table inside the image. -/
structure WellFormedElfHeader (image : List UInt8) : Prop where
  size : 52 ≤ image.length
  magic : image.take 4 = [0x7f, 0x45, 0x4c, 0x46]
  class32 : image[4]? = some 1
  littleEndian : image[5]? = some 1
  identVersion : image[6]? = some 1
  version : decodeU32Le image 20 = 1
  type : decodeU16Le image 16 = 2 ∨ decodeU16Le image 16 = 3
  machine : decodeU16Le image 18 = 40
  headerSize : decodeU16Le image 40 = 52
  programHeaderSize : decodeU16Le image 42 = 32
  table_le : (decodeU32Le image 28).toNat + 32 * (decodeU16Le image 44).toNat ≤ image.length

/-- A well-formed ELF32 ARM image. -/
structure WellFormedImage (pageSize : ℕ) (image : List UInt8) : Prop where
  header : WellFormedElfHeader image
  loads : ∀ header ∈ programHeaders image, header.isLoad → header.WellFormedLoad image
  nonempty : mappedHeaders image ≠ []
  disjoint : (mappedHeaders image).Pairwise fun h k =>
    Disjoint (h.pageRange pageSize) (k.pageRange pageSize)
  dynamics : ((programHeaders image).filter (·.isDynamic)).length ≤ 1
  dynamic : ∀ header ∈ programHeaders image, header.isDynamic → header.WellFormedDynamic image
  relros : ∀ header ∈ programHeaders image, header.isGnuRelro →
    header.WellFormedRelro pageSize image

/-! ### The ELF header -/

lemma checkElfHeader_ok_iff {image : List UInt8} :
    checkElfHeader image = .ok () ↔ WellFormedElfHeader image := by
  simp only [checkElfHeader, refuse_bind_ok_iff, refuse_ok_iff, not_lt, not_or, not_not, not_and]
  have hget : ∀ {i : ℕ} {b : UInt8}, i < image.length → (image.getD i 0 = b ↔ image[i]? = some b) := by
    intro i b hi
    rw [List.getD_eq_getElem?_getD, List.getElem?_eq_getElem hi, Option.getD_some,
      Option.some.injEq]
  constructor
  · rintro ⟨hsize, ⟨h0, h1, h2, h3⟩, h4, h5, h6, hversion, htype, hmachine, hheader, hentry, htable⟩
    rw [hget (by omega)] at h0 h1 h2 h3 h4 h5 h6
    refine ⟨hsize, ?_, h4, h5, h6, hversion, ?_, hmachine, hheader, hentry, ?_⟩
    · refine List.ext_getElem? fun i => ?_
      rw [List.getElem?_take]
      split
      · interval_cases i <;> simp [h0, h1, h2, h3]
      · rw [List.getElem?_eq_none (by simpa using by omega)]
    · by_cases h : decodeU16Le image 16 = 3
      · exact Or.inr h
      · exact Or.inl (htype h)
    · rwa [hentry] at htable
  · rintro ⟨hsize, hmagic, h4, h5, h6, hversion, htype, hmachine, hheader, hentry, htable⟩
    have hbyte : ∀ i < 4, image.getD i 0 = [0x7f, 0x45, 0x4c, 0x46].getD i 0 := by
      intro i hi
      rw [← hmagic, List.getD_eq_getElem?_getD, List.getD_eq_getElem?_getD,
        List.getElem?_take_of_lt hi]
    refine ⟨hsize, ⟨hbyte 0 (by omega), hbyte 1 (by omega), hbyte 2 (by omega), hbyte 3 (by omega)⟩,
      (hget (by omega)).mpr h4, (hget (by omega)).mpr h5, (hget (by omega)).mpr h6, hversion,
      fun h => htype.resolve_right h, hmachine, hheader, hentry, ?_⟩
    rwa [hentry]

/-! ### Rounding and flags -/

section Rounding

variable {value alignment : ℕ}

lemma alignDown_eq (value alignment : ℕ) :
    alignDown value alignment = value / alignment * alignment := by
  have h := Nat.div_add_mod value alignment
  rw [alignDown, Nat.mul_comm (value / alignment)]
  omega

lemma alignUp_eq (ha : alignment ∣ 2 ^ 32) (hv : value ≤ 2 ^ 32) :
    alignUp value alignment = some ((value + alignment - 1) / alignment * alignment) := by
  obtain ⟨result, hresult⟩ := alignUp_isSome ha hv
  obtain ⟨⟨c, rfl⟩, hle, hlt, -⟩ := alignUp_spec ha hresult
  have hc : (value + alignment - 1) / alignment = c := by
    refine Nat.div_eq_of_lt_le ?_ ?_
    · rw [Nat.mul_comm]
      omega
    · rw [Nat.add_mul, Nat.mul_comm c]
      omega
  rw [hresult, hc, Nat.mul_comm]

end Rounding

lemma flag_iff (flags : UInt32) (i : ℕ) (mask : UInt32) (hmask : mask.toNat = 2 ^ i) :
    (flags &&& mask != 0) = flags.toNat.testBit i := by
  have hand : (flags &&& mask).toNat = flags.toNat &&& 2 ^ i := by rw [UInt32.toNat_and, hmask]
  rw [Bool.eq_iff_iff, bne_iff_ne, ne_eq, ← UInt32.toNat_inj, hand, Nat.and_two_pow]
  cases flags.toNat.testBit i <;> simp

lemma decodeSegmentPermissions_isSome {header : ProgramHeader} :
    (decodeSegmentPermissions header.flags).isSome
      ↔ (header.writable ∨ header.executable → header.readable)
        ∧ ¬(header.writable ∧ header.executable) := by
  simp only [decodeSegmentPermissions, flag_iff header.flags 2 4 rfl, flag_iff header.flags 1 2 rfl,
    flag_iff header.flags 0 1 rfl, ProgramHeader.readable, ProgramHeader.writable,
    ProgramHeader.executable]
  cases header.flags.toNat.testBit 2 <;> cases header.flags.toNat.testBit 1 <;>
    cases header.flags.toNat.testBit 0 <;> simp

lemma hasPermission_read_segment {header : ProgramHeader} (pageSize : ℕ)
    (h : (decodeSegmentPermissions header.flags).isSome) :
    hasPermission (header.segment pageSize).permissions .read = header.readable := by
  simp only [ProgramHeader.segment]
  simp only [decodeSegmentPermissions, flag_iff header.flags 2 4 rfl, flag_iff header.flags 1 2 rfl,
    flag_iff header.flags 0 1 rfl, ProgramHeader.readable] at h ⊢
  revert h
  cases header.flags.toNat.testBit 2 <;> cases header.flags.toNat.testBit 1 <;>
    cases header.flags.toNat.testBit 0 <;> decide

lemma isPowerOfTwo_iff {value : UInt32} : isPowerOfTwo value = true ↔ ∃ k, value.toNat = 2 ^ k := by
  refine ⟨isPowerOfTwo_spec, fun h => ?_⟩
  obtain ⟨hpos, h0⟩ := Nat.ne_zero_and_sub_one_eq_zero_iff_isPowerOfTwo.mpr h
  have hne : value ≠ 0 := fun h0 => hpos (by rw [h0]; rfl)
  have hsub : (value - 1).toNat = value.toNat - 1 := by
    refine UInt32.toNat_sub_of_le _ _ ?_
    rw [UInt32.le_iff_toNat_le]
    exact Nat.one_le_iff_ne_zero.mpr hpos
  have hand : value &&& (value - 1) = 0 := by
    rw [← UInt32.toNat_inj, UInt32.toNat_and, hsub, h0]
    rfl
  simp [isPowerOfTwo, hne, hand]

/-! ### Single headers -/

section Headers

variable {pageSize : ℕ} {image : List UInt8} {header : ProgramHeader}

lemma toNat_ne_zero_iff {value : UInt32} : value.toNat ≠ 0 ↔ value ≠ 0 := by
  rw [ne_eq, ← UInt32.toNat_zero, UInt32.toNat_inj]

lemma loadHeaderOk_iff (hps : pageSize ∣ 2 ^ 32) :
    LoadHeaderOk pageSize image header ↔ header.WellFormedLoad image := by
  constructor
  · intro h
    refine ⟨h.fileSize_le, h.file_le, h.end_le, ?_,
      decodeSegmentPermissions_isSome.mp h.permissions⟩
    by_cases halign : 1 < header.alignment
    · obtain ⟨hpow, hmod⟩ := h.alignment halign
      refine Or.inr ⟨isPowerOfTwo_iff.mp hpow, ?_⟩
      rw [Nat.ModEq, ← UInt32.toNat_mod, ← UInt32.toNat_mod, hmod]
    · exact Or.inl (UInt32.not_lt.mp halign)
  · intro h
    refine ⟨h.fileSize_le, h.file_le, h.end_le, fun halign => ?_,
      decodeSegmentPermissions_isSome.mpr h.flags, fun _ => ?_⟩
    · have hone : 1 < header.alignment.toNat := halign
      obtain ⟨hpow, hmod⟩ := h.alignment.resolve_left (by omega)
      refine ⟨isPowerOfTwo_iff.mpr hpow, ?_⟩
      rwa [Nat.ModEq, ← UInt32.toNat_mod, ← UInt32.toNat_mod, UInt32.toNat_inj] at hmod
    · obtain ⟨result, hresult⟩ := alignUp_isSome hps h.end_le
      simp [hresult]

/-- The page-rounded range of a mapped header is the mapping planned for it. -/
lemma ProgramHeader.pageRange_eq (hps : pageSize ∣ 2 ^ 32) (hne : header.memorySize ≠ 0)
    (hend : header.virtualAddress.toNat + header.memorySize.toNat ≤ 2 ^ 32) :
    header.pageRange pageSize = Set.Ico (header.segment pageSize).mappingStart.toNat
      (header.segment pageSize).mappingEnd := by
  have hlt := header.virtualAddress.toNat_lt
  have hle : alignDown header.virtualAddress.toNat pageSize < 2 ^ 32 := by
    rw [alignDown]
    omega
  have hstart : (header.segment pageSize).mappingStart.toNat
      = header.virtualAddress.toNat / pageSize * pageSize := by
    simp only [ProgramHeader.segment, if_neg hne]
    rw [UInt32.toNat_ofNat_of_lt' hle, alignDown_eq]
  have hstop : (header.segment pageSize).mappingEnd
      = (header.virtualAddress.toNat + header.memorySize.toNat + pageSize - 1) / pageSize
          * pageSize := by
    simp only [ProgramHeader.segment, if_neg hne, alignUp_eq hps hend, Option.getD_some]
  rw [hstart, hstop]
  rfl

/-- What the header loop checks of a header by itself. -/
structure HeaderOk (pageSize : ℕ) (image : List UInt8) (header : ProgramHeader) : Prop where
  dynamic : header.isDynamic → DynamicHeaderOk image header
  relro : header.isGnuRelro → RelroHeaderOk pageSize header
  load : header.isLoad → LoadHeaderOk pageSize image header

/-- The plan after one more header. -/
def Elf32LoadPlan.withHeader (pageSize : ℕ) (plan : Elf32LoadPlan) (header : ProgramHeader) :
    Elf32LoadPlan :=
  if header.isDynamic then { plan with dynamicSegment := some header.dynamicSegment }
  else if header.isGnuRelro then
    { plan with relroSegments := plan.relroSegments ++ [header.relroSegment pageSize] }
  else if header.isLoad then plan.withLoad pageSize header
  else plan

lemma planProgramHeader_ok_iff {plan plan' : Elf32LoadPlan} :
    planProgramHeader pageSize image plan header = .ok plan'
      ↔ (HeaderOk pageSize image header ∧ (header.isDynamic → plan.dynamicSegment = none))
        ∧ plan' = plan.withHeader pageSize header := by
  rw [planProgramHeader, Elf32LoadPlan.withHeader]
  by_cases hdynamic : header.isDynamic
  · have hrelro := ProgramHeader.not_isGnuRelro_of_isDynamic hdynamic
    have hload := ProgramHeader.not_isLoad_of_isDynamic hdynamic
    rw [if_pos hdynamic, if_pos hdynamic, planDynamicHeader_ok_iff]
    constructor
    · rintro ⟨hnone, hok, rfl⟩
      exact ⟨⟨⟨fun _ => hok, fun h => absurd h hrelro, fun h => absurd h hload⟩, fun _ => hnone⟩, rfl⟩
    · rintro ⟨⟨hok, hnone⟩, rfl⟩
      exact ⟨hnone hdynamic, hok.dynamic hdynamic, rfl⟩
  rw [if_neg hdynamic, if_neg hdynamic]
  by_cases hrelro : header.isGnuRelro
  · have hload := ProgramHeader.not_isLoad_of_isGnuRelro hrelro
    rw [if_pos hrelro, if_pos hrelro, planRelroHeader_ok_iff]
    refine and_congr_left fun _ => ⟨fun hok => ?_, fun h => h.1.relro hrelro⟩
    exact ⟨⟨fun h => absurd h hdynamic, fun _ => hok, fun h => absurd h hload⟩,
      fun h => absurd h hdynamic⟩
  rw [if_neg hrelro, if_neg hrelro]
  by_cases hload : header.isLoad
  · rw [if_pos hload, if_pos hload, planLoadHeader_ok_iff]
    refine and_congr_left fun _ => ⟨fun hok => ?_, fun h => h.1.load hload⟩
    exact ⟨⟨fun h => absurd h hdynamic, fun h => absurd h hrelro, fun _ => hok⟩,
      fun h => absurd h hdynamic⟩
  · rw [if_neg hload, if_neg hload, Except.ok.injEq, eq_comm]
    exact ⟨fun h => ⟨⟨⟨fun h => absurd h hdynamic, fun h => absurd h hrelro,
      fun h => absurd h hload⟩, fun h => absurd h hdynamic⟩, h⟩, fun h => h.2⟩

end Headers

/-! ### The header loop -/

section Loop

variable {pageSize : ℕ} {image : List UInt8} {headers : List ProgramHeader} {plan : Elf32LoadPlan}

/-- The plan after the headers done so far. -/
def planAfter (pageSize : ℕ) (image : List UInt8) (headers : List ProgramHeader) : Elf32LoadPlan :=
  headers.foldl (Elf32LoadPlan.withHeader pageSize)
    { type := imageType image, entry := decodeU32Le image 24, minimumPage := 2 ^ 32 }

lemma planAfter_append (header : ProgramHeader) :
    planAfter pageSize image (headers ++ [header])
      = (planAfter pageSize image headers).withHeader pageSize header := by
  rw [planAfter, List.foldl_append]
  rfl

lemma planAfter_dynamicSegment_eq_none :
    (planAfter pageSize image headers).dynamicSegment = none
      ↔ ∀ header ∈ headers, ¬header.isDynamic := by
  induction headers using List.reverseRecOn with
  | nil => simp [planAfter]
  | append_singleton headers header ih =>
      rw [planAfter_append]
      by_cases h : header.isDynamic
      · simp [Elf32LoadPlan.withHeader, h, or_imp, forall_and]
      · have hsame : ((planAfter pageSize image headers).withHeader pageSize header).dynamicSegment
            = (planAfter pageSize image headers).dynamicSegment := by
          rw [Elf32LoadPlan.withHeader, if_neg h]
          split
          · rfl
          split <;> rfl
        simp [hsame, ih, or_imp, forall_and, h]

/-- Entries that satisfy `p` are at most one. -/
lemma filter_length_le_one_iff {α : Type} {p : α → Bool} {l : List α} :
    (l.filter p).length ≤ 1
      ↔ ∀ done a rest, l = done ++ a :: rest → p a = true → ∀ b ∈ done, ¬p b = true := by
  have hpair : (l.filter p).length ≤ 1 ↔ (l.filter p).Pairwise fun _ _ => False := by
    rcases l.filter p with - | ⟨a, - | ⟨b, rest⟩⟩
    · simp
    · simp
    · refine iff_of_false (by simp) fun h => ?_
      exact List.rel_of_pairwise_cons h List.mem_cons_self
  rw [hpair, List.pairwise_filter, pairwise_iff_split]
  constructor
  · exact fun h done a rest hl ha b hb hb' => h done a rest hl b hb hb' ha
  · exact fun h done a rest hl b hb hb' ha => h done a rest hl ha b hb hb'

/-- The loop succeeds when every header passes its own checks and at most one is
`PT_DYNAMIC`. -/
lemma planHeaders_ok_iff :
    headers.foldlM (planProgramHeader pageSize image)
        { type := imageType image, entry := decodeU32Le image 24, minimumPage := 2 ^ 32 } = .ok plan
      ↔ ((∀ header ∈ headers, HeaderOk pageSize image header)
          ∧ (headers.filter (·.isDynamic)).length ≤ 1)
        ∧ plan = planAfter pageSize image headers := by
  have hloop := foldlM_ok_iff (f := planProgramHeader pageSize image)
    (D := planAfter pageSize image)
    (fun done a b => by rw [planProgramHeader_ok_iff, planAfter_append]) (l := headers) (r := plan)
  refine Iff.trans hloop (and_congr_left fun _ => ?_)
  simp only [filter_length_le_one_iff, decide_eq_true_eq, planAfter_dynamicSegment_eq_none]
  constructor
  · intro h
    refine ⟨fun header hmem => ?_, fun done a rest hl => (h done a rest hl).2⟩
    obtain ⟨done, rest, hl⟩ := List.append_of_mem hmem
    exact (h done header rest hl).1
  · rintro ⟨hall, hdynamic⟩ done a rest rfl
    exact ⟨hall a (by simp), hdynamic done a rest rfl⟩

end Loop

/-! ### The checks over all headers -/

section Checks

variable {pageSize : ℕ} {image : List UInt8} {headers : List ProgramHeader} {plan : Elf32LoadPlan}

/-- The neighbour check on the sorted segments decides disjointness of all
pairs. -/
lemma checkPageOverlap_ok_iff (hpos : ∀ segment ∈ plan.segments, segment.memorySize ≠ 0 →
      segment.mappingStart.toNat < segment.mappingEnd) :
    checkPageOverlap plan = .ok ()
      ↔ (plan.segments.filter (·.memorySize ≠ 0)).Pairwise fun s t =>
        s.mappingEnd ≤ t.mappingStart.toNat ∨ t.mappingEnd ≤ s.mappingStart.toNat := by
  refine ⟨fun h => segments_disjoint h fun s hs hne => (hpos s hs hne).le, fun h => ?_⟩
  have hperm : plan.ordered.Perm (plan.segments.filter (·.memorySize ≠ 0)) :=
    List.perm_insertionSort _ _
  have hordered : plan.ordered.Pairwise fun s t =>
      s.mappingEnd ≤ t.mappingStart.toNat ∨ t.mappingEnd ≤ s.mappingStart.toNat :=
    h.perm hperm.symm fun h => h.symm
  have hsorted : plan.ordered.Pairwise fun s t => s.mappingStart ≤ t.mappingStart := by
    have : Std.Total fun s t : Elf32LoadPlanSegment => s.mappingStart ≤ t.mappingStart :=
      ⟨fun s t => UInt32.le_total _ _⟩
    have : IsTrans Elf32LoadPlanSegment fun s t => s.mappingStart ≤ t.mappingStart :=
      ⟨fun _ _ _ => UInt32.le_trans⟩
    exact List.pairwise_insertionSort _ _
  simp only [checkPageOverlap, refuse_ok_iff, Bool.not_eq_true, List.any_eq_false,
    decide_eq_true_eq, not_lt]
  intro p hp
  obtain ⟨i, hi, rfl⟩ := List.mem_iff_getElem.mp hp
  simp only [List.length_zip, List.length_tail] at hi
  simp only [List.getElem_zip, List.getElem_tail]
  have h1 := List.pairwise_iff_getElem.mp hordered i (i + 1) (by omega) (by omega) (by omega)
  have h2 := List.pairwise_iff_getElem.mp hsorted i (i + 1) (by omega) (by omega) (by omega)
  have hmem : plan.ordered[i + 1] ∈ plan.segments.filter (·.memorySize ≠ 0) :=
    hperm.mem_iff.mp (List.getElem_mem _)
  simp only [List.mem_filter, decide_eq_true_eq] at hmem
  have h3 := hpos _ hmem.1 hmem.2
  rw [UInt32.le_iff_toNat_le] at h2
  omega

/-- Over disjoint mappings an address determines the header that maps it. -/
lemma ProgramHeader.eq_of_mem_pageRange {h k : ProgramHeader} {x : ℕ}
    (hdisjoint : (mappedHeaders image).Pairwise fun h k =>
      Disjoint (h.pageRange pageSize) (k.pageRange pageSize))
    (hh : h ∈ mappedHeaders image) (hk : k ∈ mappedHeaders image)
    (hx : x ∈ h.pageRange pageSize) (hx' : x ∈ k.pageRange pageSize) : h = k := by
  have hsymm : Std.Symm fun h k : ProgramHeader =>
    Disjoint (h.pageRange pageSize) (k.pageRange pageSize) := ⟨fun _ _ hd => hd.symm⟩
  by_contra hne
  exact Set.disjoint_left.mp (hdisjoint.forall hh hk hne) hx hx'

lemma Collected.mapping_lt (hc : Collected pageSize image (programHeaders image) plan)
    (hps : pageSize ∣ 2 ^ 32) {header : ProgramHeader} (hmem : header ∈ mappedHeaders image) :
    header.pageRange pageSize = Set.Ico (header.segment pageSize).mappingStart.toNat
        (header.segment pageSize).mappingEnd
      ∧ (header.segment pageSize).mappingStart.toNat ≤ header.virtualAddress.toNat
      ∧ header.virtualAddress.toNat + header.memorySize.toNat
          ≤ (header.segment pageSize).mappingEnd
      ∧ (header.segment pageSize).mappingStart.toNat < (header.segment pageSize).mappingEnd := by
  obtain ⟨hmem, hload, hne⟩ := mem_mappedHeaders.mp hmem
  have hok := hc.loads header hmem hload
  have hmap := hok.mapping hps hne
  exact ⟨header.pageRange_eq hps hne hok.end_le, hmap.2.2.1, hmap.2.2.2.2.1, hmap.2.2.2.2.2.2.2⟩

/-- The overlap check decides disjointness of the page-rounded ranges. -/
lemma Collected.checkPageOverlap_iff (hc : Collected pageSize image (programHeaders image) plan)
    (hps : pageSize ∣ 2 ^ 32) : checkPageOverlap plan = .ok ()
    ↔ (mappedHeaders image).Pairwise fun h k =>
      Disjoint (h.pageRange pageSize) (k.pageRange pageSize) := by
  have hpos : ∀ segment ∈ plan.segments, segment.memorySize ≠ 0 →
      segment.mappingStart.toNat < segment.mappingEnd := by
    intro segment hmem hne
    have hmem' : segment ∈ plan.segments.filter (·.memorySize ≠ 0) := by
      simpa using ⟨hmem, hne⟩
    rw [hc.filter_segments] at hmem'
    obtain ⟨header, hheader, rfl⟩ := List.mem_map.mp hmem'
    exact (hc.mapping_lt hps hheader).2.2.2
  rw [checkPageOverlap_ok_iff hpos, hc.filter_segments, List.pairwise_map]
  refine List.Pairwise.iff_of_mem fun {h k} hh hk => ?_
  obtain ⟨heq, -, -, hlt⟩ := hc.mapping_lt hps hh
  obtain ⟨heq', -, -, hlt'⟩ := hc.mapping_lt hps hk
  rw [heq, heq', Set.Ico_disjoint_Ico]
  omega

/-- The lowest page stays at the end of the address space until a header is
mapped. -/
lemma Collected.minimumPage_ne_iff (hc : Collected pageSize image (programHeaders image) plan) :
    plan.minimumPage ≠ 2 ^ 32 ↔ mappedHeaders image ≠ [] := by
  constructor
  · intro hne hnil
    obtain ⟨header, hmem, hmapped, -⟩ := hc.minimum_attained.resolve_left hne
    have hheader : header ∈ mappedHeaders image := mem_mappedHeaders.mpr ⟨hmem, hmapped⟩
    rw [hnil] at hheader
    exact absurd hheader List.not_mem_nil
  · intro hne heq
    obtain ⟨header, hheader⟩ := List.exists_mem_of_ne_nil _ hne
    obtain ⟨hmem, hmapped⟩ := mem_mappedHeaders.mp hheader
    have hle := hc.minimum_le header hmem hmapped
    have hlt := (header.segment pageSize).mappingStart.toNat_lt
    omega

/-- A search among the non-empty segments finds the segment of a header. -/
lemma Collected.find_segment (hc : Collected pageSize image (programHeaders image) plan)
    {q : Elf32LoadPlanSegment → Bool} {segment : Elf32LoadPlanSegment}
    (hq : ∀ segment, q segment = true → segment.memorySize ≠ 0)
    (hfind : plan.segments.find? q = some segment) :
    ∃ load ∈ mappedHeaders image, segment = load.segment pageSize
      ∧ q (load.segment pageSize) = true := by
  have hsome := List.find?_some hfind
  have hmem : segment ∈ plan.segments.filter (·.memorySize ≠ 0) := by
    simpa using ⟨List.mem_of_find?_eq_some hfind, hq _ hsome⟩
  rw [hc.filter_segments] at hmem
  obtain ⟨load, hload, rfl⟩ := List.mem_map.mp hmem
  exact ⟨load, hload, rfl, hsome⟩

/-- Conversely, a header whose segment matches makes the search succeed. -/
lemma Collected.find_isSome (hc : Collected pageSize image (programHeaders image) plan)
    (q : Elf32LoadPlanSegment → Bool) {load : ProgramHeader}
    (hload : load ∈ mappedHeaders image) (hq : q (load.segment pageSize) = true) :
    ∃ segment, plan.segments.find? q = some segment := by
  rw [← Option.isSome_iff_exists, List.find?_isSome]
  refine ⟨load.segment pageSize, ?_, hq⟩
  obtain ⟨hmem, hisLoad, -⟩ := mem_mappedHeaders.mp hload
  rw [hc.segments]
  exact List.mem_map_of_mem (List.mem_filter.mpr ⟨hmem, by simpa using hisLoad⟩)

lemma Collected.readable (hc : Collected pageSize image (programHeaders image) plan)
    {load : ProgramHeader} (hload : load ∈ mappedHeaders image) :
    hasPermission (load.segment pageSize).permissions .read = load.readable := by
  obtain ⟨hmem, hisLoad, -⟩ := mem_mappedHeaders.mp hload
  exact hasPermission_read_segment pageSize (hc.loads load hmem hisLoad).permissions

/-- The containment test of the planner, on headers. -/
lemma containsDynamic_iff {dynamic load : ProgramHeader} (hload : load ∈ mappedHeaders image) :
    (load.segment pageSize).containsDynamic dynamic.dynamicSegment = true
      ↔ load.virtualAddress.toNat ≤ dynamic.virtualAddress.toNat
        ∧ dynamic.virtualAddress.toNat + dynamic.memorySize.toNat
            ≤ load.virtualAddress.toNat + load.memorySize.toNat := by
  have hne := (mem_mappedHeaders.mp hload).2.2
  simp [Elf32LoadPlanSegment.containsDynamic, ProgramHeader.segment, ProgramHeader.dynamicSegment,
    hne]

lemma memorySize_ne_of_test {segment : Elf32LoadPlanSegment} {dynamic : Elf32LoadPlanDynamicSegment}
    {test : Bool} (h : (segment.containsDynamic dynamic && test) = true) :
    segment.memorySize ≠ 0 := by
  simp only [Elf32LoadPlanSegment.containsDynamic, Bool.and_eq_true, bne_iff_ne] at h
  exact h.1.1.1

/-- The check of a `PT_DYNAMIC` header: over disjoint mappings the first readable
segment that contains it is the only one. -/
lemma Collected.checkDynamicSegment_iff
    (hc : Collected pageSize image (programHeaders image) plan) (hps : pageSize ∣ 2 ^ 32)
    {dynamic : ProgramHeader}
    (hdisjoint : (mappedHeaders image).Pairwise fun h k =>
      Disjoint (h.pageRange pageSize) (k.pageRange pageSize))
    (hplan : plan.dynamicSegment = some dynamic.dynamicSegment)
    (hne : dynamic.memorySize.toNat ≠ 0) :
    checkDynamicSegment plan = .ok () ↔ ∃ load ∈ mappedHeaders image, dynamic.LiesIn load := by
  simp only [checkDynamicSegment, hplan, refuse_bind_ok_iff, Bool.not_eq_true,
    Bool.not_eq_false']
  constructor
  · rintro ⟨-, h⟩
    split at h
    · cases h
    rename_i segment hfind
    obtain ⟨load, hload, rfl, hq⟩ := hc.find_segment (fun _ => memorySize_ne_of_test) hfind
    rw [Bool.and_eq_true, containsDynamic_iff hload, hc.readable hload] at hq
    refine ⟨load, hload, hq.2, hq.1.1, hq.1.2, fun hfile => ?_⟩
    have hfile' : dynamic.dynamicSegment.fileSize ≠ 0 := toNat_ne_zero_iff.mp hfile
    rw [if_pos hfile', refuse_ok_iff] at h
    simp only [not_or, not_lt, not_not] at h
    obtain ⟨h1, h2, h3⟩ := h
    exact ⟨by simp only [ProgramHeader.segment, ProgramHeader.dynamicSegment] at h1 h2; omega, h3⟩
  · rintro ⟨load, hload, hlies⟩
    have hcontains : (load.segment pageSize).containsDynamic dynamic.dynamicSegment = true :=
      (containsDynamic_iff hload).mpr ⟨hlies.start_le, hlies.end_le⟩
    have hmatch : ((load.segment pageSize).containsDynamic dynamic.dynamicSegment
        && hasPermission (load.segment pageSize).permissions .read) = true := by
      rw [hcontains, hc.readable hload, hlies.readable]
      rfl
    obtain ⟨segment, hfind⟩ := hc.find_isSome (fun segment =>
      segment.containsDynamic dynamic.dynamicSegment && hasPermission segment.permissions .read)
      hload hmatch
    obtain ⟨load', hload', rfl, hq⟩ := hc.find_segment (fun _ => memorySize_ne_of_test) hfind
    rw [Bool.and_eq_true, containsDynamic_iff hload'] at hq
    -- both segments map the first byte of the dynamic range
    have hsame : load' = load := by
      obtain ⟨heq, hstart, hstop, -⟩ := hc.mapping_lt hps hload
      obtain ⟨heq', hstart', hstop', -⟩ := hc.mapping_lt hps hload'
      have h1 := hlies.start_le
      have h2 := hlies.end_le
      refine ProgramHeader.eq_of_mem_pageRange (x := dynamic.virtualAddress.toNat) hdisjoint
        hload' hload ?_ ?_
      · rw [heq', Set.mem_Ico]
        omega
      · rw [heq, Set.mem_Ico]
        omega
    subst hsame
    refine ⟨List.any_eq_true.mpr ⟨_, List.mem_of_find?_eq_some hfind, hcontains⟩, ?_⟩
    rw [hfind]
    simp only
    split
    · rename_i hfile
      obtain ⟨h1, h2⟩ := hlies.file (toNat_ne_zero_iff.mpr hfile)
      rw [refuse_ok_iff]
      simp only [ProgramHeader.segment, ProgramHeader.dynamicSegment]
      omega
    · rfl

/-- The pages of a relro range, by number. -/
lemma mem_relroSteps (hps : pageSize ∣ 2 ^ 32) {header : ProgramHeader}
    (hok : RelroHeaderOk pageSize header) {x : ℕ} :
    x ∈ pageSteps pageSize (header.relroSegment pageSize).mappingStart.toNat
        (header.relroSegment pageSize).mappingEnd
      ↔ ∃ page, x = page * pageSize ∧ x ∈ header.pageRange pageSize := by
  have hpos : 0 < pageSize := Nat.pos_of_dvd_of_pos hps (by norm_num)
  have hlt := header.virtualAddress.toNat_lt
  have hle : alignDown header.virtualAddress.toNat pageSize < 2 ^ 32 := by
    rw [alignDown]
    omega
  have hstart : (header.relroSegment pageSize).mappingStart.toNat
      = header.virtualAddress.toNat / pageSize * pageSize := by
    simp only [ProgramHeader.relroSegment]
    rw [UInt32.toNat_ofNat_of_lt' hle, alignDown_eq]
  have hstop : (header.relroSegment pageSize).mappingEnd
      = (header.virtualAddress.toNat + header.memorySize.toNat + pageSize - 1) / pageSize
          * pageSize := by
    simp only [ProgramHeader.relroSegment, alignUp_eq hps hok.end_le, Option.getD_some]
  rw [MappedGuestMemory.mem_pageSteps hpos, hstart, hstop]
  simp only [ProgramHeader.pageRange, pageRounded, Set.mem_Ico]
  constructor
  · rintro ⟨i, rfl, hend⟩
    exact ⟨header.virtualAddress.toNat / pageSize + i, (Nat.add_mul _ _ _).symm, by omega, hend⟩
  · rintro ⟨page, rfl, hge, hend⟩
    have hpage := Nat.le_of_mul_le_mul_right hge hpos
    refine ⟨page - header.virtualAddress.toNat / pageSize, ?_, hend⟩
    rw [← Nat.add_mul, Nat.add_sub_cancel' hpage]

/-- The check of one relro page: the segment that maps it is readable. -/
lemma Collected.checkRelroPage_iff (hc : Collected pageSize image (programHeaders image) plan)
    (hps : pageSize ∣ 2 ^ 32) {page : ℕ}
    (hdisjoint : (mappedHeaders image).Pairwise fun h k =>
      Disjoint (h.pageRange pageSize) (k.pageRange pageSize)) :
    checkRelroPage pageSize plan (page * pageSize) = .ok ()
      ↔ ∃ load ∈ mappedHeaders image, load.readable
        ∧ Set.Ico (page * pageSize) ((page + 1) * pageSize) ⊆ load.pageRange pageSize := by
  have hpos : 0 < pageSize := Nat.pos_of_dvd_of_pos hps (by norm_num)
  have hnext : (page + 1) * pageSize = page * pageSize + pageSize := Nat.succ_mul _ _
  -- the test of the search, as an inclusion
  have htest : ∀ load ∈ mappedHeaders image,
      ((load.segment pageSize).memorySize != 0
          && decide ((load.segment pageSize).mappingStart.toNat ≤ page * pageSize)
          && decide (page * pageSize + pageSize ≤ (load.segment pageSize).mappingEnd)) = true
        ↔ Set.Ico (page * pageSize) ((page + 1) * pageSize) ⊆ load.pageRange pageSize := by
    intro load hload
    have hne : (load.segment pageSize).memorySize ≠ 0 := (mem_mappedHeaders.mp hload).2.2
    rw [(hc.mapping_lt hps hload).1, Set.Ico_subset_Ico_iff (by omega), hnext]
    simp [hne]
  have hmem : page * pageSize ∈ Set.Ico (page * pageSize) ((page + 1) * pageSize) :=
    ⟨le_rfl, by omega⟩
  rw [checkRelroPage]
  constructor
  · intro h
    split at h
    · cases h
    rename_i segment hfind
    obtain ⟨load, hload, rfl, hq⟩ := hc.find_segment (fun segment h => by simp_all) hfind
    rw [refuse_ok_iff, hc.readable hload] at h
    exact ⟨load, hload, by simpa using h, (htest load hload).mp hq⟩
  · rintro ⟨load, hload, hreadable, hsub⟩
    obtain ⟨segment, hfind⟩ := hc.find_isSome (fun segment => segment.memorySize != 0
      && decide (segment.mappingStart.toNat ≤ page * pageSize)
      && decide (page * pageSize + pageSize ≤ segment.mappingEnd)) hload ((htest load hload).mpr hsub)
    obtain ⟨load', hload', rfl, hq⟩ := hc.find_segment (fun segment h => by simp_all) hfind
    have hsame : load' = load := ProgramHeader.eq_of_mem_pageRange hdisjoint hload' hload
      ((htest load' hload').mp hq hmem) (hsub hmem)
    rw [hfind]
    simp only
    rw [refuse_ok_iff, hc.readable hload', hsame, hreadable]
    simp

/-- The relro check, header by header. -/
lemma Collected.checkRelroSegments_iff
    (hc : Collected pageSize image (programHeaders image) plan) (hps : pageSize ∣ 2 ^ 32)
    (hdisjoint : (mappedHeaders image).Pairwise fun h k =>
      Disjoint (h.pageRange pageSize) (k.pageRange pageSize)) :
    checkRelroSegments pageSize plan = .ok ()
      ↔ ∀ header ∈ programHeaders image, header.isGnuRelro →
        ∀ page, page * pageSize ∈ header.pageRange pageSize →
          ∃ load ∈ mappedHeaders image, load.readable
            ∧ Set.Ico (page * pageSize) ((page + 1) * pageSize) ⊆ load.pageRange pageSize := by
  rw [checkRelroSegments, forM_ok_iff, hc.relroSegments]
  constructor
  · intro h header hmem hrelro page hpage
    have hsteps := forM_ok_iff.mp (h _ (List.mem_map_of_mem (List.mem_filter.mpr
      ⟨hmem, by simpa using hrelro⟩)))
    rw [← hc.checkRelroPage_iff hps hdisjoint]
    exact hsteps _ ((mem_relroSteps hps (hc.relros header hmem hrelro)).mpr ⟨page, rfl, hpage⟩)
  · intro h relro hrelro
    obtain ⟨header, hheader, rfl⟩ := List.mem_map.mp hrelro
    obtain ⟨hmem, hisRelro⟩ := List.mem_filter.mp hheader
    have hisRelro : header.isGnuRelro := by simpa using hisRelro
    refine forM_ok_iff.mpr fun x hx => ?_
    obtain ⟨page, rfl, hpage⟩ := (mem_relroSteps hps (hc.relros header hmem hisRelro)).mp hx
    exact (hc.checkRelroPage_iff hps hdisjoint).mpr (h header hmem hisRelro page hpage)

end Checks

/-! ### The planner -/

section Planner

variable {pageSize : ℕ} {image : List UInt8}

/-- Of at most one entry, any two are the same. -/
lemma eq_of_filter_length_le_one {α : Type} {p : α → Bool} {l : List α}
    (h : (l.filter p).length ≤ 1) {a b : α} (ha : a ∈ l) (hb : b ∈ l) (hpa : p a = true)
    (hpb : p b = true) : a = b := by
  have ha' : a ∈ l.filter p := List.mem_filter.mpr ⟨ha, hpa⟩
  have hb' : b ∈ l.filter p := List.mem_filter.mpr ⟨hb, hpb⟩
  rcases hl : l.filter p with - | ⟨c, - | ⟨d, rest⟩⟩
  · rw [hl] at ha'
    exact absurd ha' List.not_mem_nil
  · rw [hl, List.mem_singleton] at ha' hb'
    rw [ha', hb']
  · rw [hl] at h
    simp at h

/-- The plan holds the dynamic segment of the only `PT_DYNAMIC` header. -/
lemma planAfter_dynamicSegment {header : ProgramHeader}
    (hc : Collected pageSize image (programHeaders image)
      (planAfter pageSize image (programHeaders image)))
    (hone : ((programHeaders image).filter (·.isDynamic)).length ≤ 1)
    (hmem : header ∈ programHeaders image) (hdynamic : header.isDynamic) :
    (planAfter pageSize image (programHeaders image)).dynamicSegment
      = some header.dynamicSegment := by
  cases hplan : (planAfter pageSize image (programHeaders image)).dynamicSegment with
  | none => exact absurd hdynamic (planAfter_dynamicSegment_eq_none.mp hplan header hmem)
  | some dynamic =>
      obtain ⟨header', hmem', hdynamic', -, rfl⟩ := hc.dynamic dynamic hplan
      rw [eq_of_filter_length_le_one hone hmem hmem' (by simpa using hdynamic)
        (by simpa using hdynamic')]

/-- Accepted images are well formed. -/
lemma wellFormedImage_of_plan (hps : pageSize ∣ 2 ^ 32) {plan : Elf32LoadPlan}
    (h : planElf32Load pageSize image = .ok plan) : WellFormedImage pageSize image := by
  simp only [planElf32Load, bind_ok_iff, refuse_ok_iff, not_or] at h
  obtain ⟨⟨⟩, helf, collected, hloop, ⟨⟩, ⟨-, hmin⟩, ⟨⟩, hdynamic, ⟨⟩, hoverlap, ⟨⟩, hrelro, -⟩ := h
  have hc := collected_of_planHeaders hloop
  obtain ⟨⟨hheaders, hone⟩, rfl⟩ := planHeaders_ok_iff.mp hloop
  have hdisjoint := (hc.checkPageOverlap_iff hps).mp hoverlap
  refine ⟨checkElfHeader_ok_iff.mp helf, ?_, hc.minimumPage_ne_iff.mp hmin, hdisjoint, hone, ?_, ?_⟩
  · exact fun header hmem hload => (loadHeaderOk_iff hps).mp ((hheaders header hmem).load hload)
  · intro header hmem hisDynamic
    have hok := (hheaders header hmem).dynamic hisDynamic
    have hne := toNat_ne_zero_iff.mpr hok.memorySize_ne
    refine ⟨hne, hok.fileSize_le, hok.file_le, ?_⟩
    exact (hc.checkDynamicSegment_iff hps hdisjoint
      (planAfter_dynamicSegment hc hone hmem hisDynamic) hne).mp hdynamic
  · intro header hmem hisRelro
    have hok := (hheaders header hmem).relro hisRelro
    exact ⟨toNat_ne_zero_iff.mpr hok.memorySize_ne, hok.end_le,
      (hc.checkRelroSegments_iff hps hdisjoint).mp hrelro header hmem hisRelro⟩

/-- Every header of a well-formed image passes the checks of the loop. -/
lemma WellFormedImage.headerOk (h : WellFormedImage pageSize image) (hps : pageSize ∣ 2 ^ 32)
    {header : ProgramHeader} (hmem : header ∈ programHeaders image) :
    HeaderOk pageSize image header := by
  refine ⟨fun hdynamic => ?_, fun hrelro => ?_, fun hload => ?_⟩
  · have hok := h.dynamic header hmem hdynamic
    obtain ⟨load, hload, hlies⟩ := hok.inside
    obtain ⟨hmem', hisLoad, -⟩ := mem_mappedHeaders.mp hload
    exact ⟨toNat_ne_zero_iff.mp hok.nonempty, hok.fileSize_le, hok.file_le,
      hlies.end_le.trans (h.loads load hmem' hisLoad).end_le⟩
  · have hok := h.relros header hmem hrelro
    obtain ⟨result, hresult⟩ := alignUp_isSome hps hok.end_le
    exact ⟨toNat_ne_zero_iff.mp hok.nonempty, hok.end_le, by simp [hresult]⟩
  · exact (loadHeaderOk_iff hps).mpr (h.loads header hmem hload)

/-- Well-formed images are accepted. -/
lemma WellFormedImage.plan (h : WellFormedImage pageSize image) (hps : pageSize ∣ 2 ^ 32) :
    planElf32Load pageSize image = .ok (planAfter pageSize image (programHeaders image)) := by
  have hloop := planHeaders_ok_iff.mpr
    ⟨⟨fun header hmem => h.headerOk hps hmem, h.dynamics⟩, rfl⟩
  have hc := collected_of_planHeaders hloop
  have hsegments : (planAfter pageSize image (programHeaders image)).segments ≠ [] := by
    obtain ⟨load, hload⟩ := List.exists_mem_of_ne_nil _ h.nonempty
    obtain ⟨hmem, hisLoad, -⟩ := mem_mappedHeaders.mp hload
    rw [hc.segments]
    exact List.ne_nil_of_mem (List.mem_map_of_mem (List.mem_filter.mpr
      ⟨hmem, by simpa using hisLoad⟩))
  have hdynamic : checkDynamicSegment (planAfter pageSize image (programHeaders image)) = .ok () := by
    cases hplan : (planAfter pageSize image (programHeaders image)).dynamicSegment with
    | none => simp only [checkDynamicSegment, hplan]
    | some dynamic =>
        obtain ⟨header, hmem, hisDynamic, -, rfl⟩ := hc.dynamic dynamic hplan
        have hok := h.dynamic header hmem hisDynamic
        exact (hc.checkDynamicSegment_iff hps h.disjoint hplan hok.nonempty).mpr hok.inside
  have hrelro := (hc.checkRelroSegments_iff hps h.disjoint).mpr fun header hmem hisRelro =>
    (h.relros header hmem hisRelro).inside
  simp only [planElf32Load, bind_ok_iff, refuse_ok_iff, not_or]
  exact ⟨(), checkElfHeader_ok_iff.mpr h.header, _, hloop, (), ⟨hsegments,
    hc.minimumPage_ne_iff.mpr h.nonempty⟩, (), hdynamic, (),
    (hc.checkPageOverlap_iff hps).mpr h.disjoint, (), hrelro, rfl⟩

end Planner

end LibA32Android

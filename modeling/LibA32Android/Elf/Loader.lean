/-
The image loader (`elf/elf32_loader.h`, `elf/elf32_load_types.h`,
`elf/loading/elf32_loader.cpp`).

`loadElf32` plans the image, biases the plan (`biasPlan`), refuses a mapping
that meets a mapped page, and then makes three passes over the segments: map
all of them read-write, write the file bytes and the zero fill, and set the
final permissions.  A pass that fails unmaps what was mapped.
-/
import LibA32Android.Elf.LoadPlan
import LibA32Android.Memory.Transaction

namespace LibA32Android

open Foundations

/-- `Elf32LoadedSegment`. -/
structure Elf32LoadedSegment where
  guestAddress : UInt32
  fileSize : UInt32
  memorySize : UInt32
  mappingStart : UInt32
  mappingSize : ℕ
  permissions : MemoryPermission
  deriving DecidableEq, Repr

/-- `Elf32DynamicSegment`. -/
structure Elf32DynamicSegment where
  guestAddress : UInt32
  fileSize : UInt32
  memorySize : UInt32
  deriving DecidableEq, Repr

/-- `Elf32RelroSegment`. -/
structure Elf32RelroSegment where
  guestAddress : UInt32
  memorySize : UInt32
  mappingStart : UInt32
  mappingSize : ℕ
  deriving DecidableEq, Repr

/-- `Elf32LoadResult` without its error: a failed load carries only that. -/
structure Elf32LoadResult where
  loadBias : UInt32 := 0
  entry : UInt32 := 0
  segments : List Elf32LoadedSegment := []
  dynamicSegment : Option Elf32DynamicSegment := none
  relroSegments : List Elf32RelroSegment := []
  deriving DecidableEq, Repr

/-- `Elf32LoadOptions`. -/
structure Elf32LoadOptions where
  dynamicBase : Option UInt32 := none
  deriving DecidableEq, Repr

/-! ### Biasing the plan -/

/-- `PlannedSegment`. -/
structure PlannedSegment where
  raw : Elf32LoadPlanSegment
  guestAddress : UInt32
  mappingStart : UInt32
  mappingEnd : ℕ
  deriving DecidableEq, Repr

/-- `mapping_size` of a planned segment. -/
def PlannedSegment.mappingSize (planned : PlannedSegment) : ℕ :=
  planned.mappingEnd - planned.mappingStart.toNat

/-- The range a planned segment maps. -/
def PlannedSegment.range (planned : PlannedSegment) : MappedRange :=
  ⟨planned.mappingStart, planned.mappingSize⟩

/-- The load bias: zero for `ET_EXEC`; for `ET_DYN` the distance of the lowest
mapping to the requested base. -/
def planLoadBias (pageSize : ℕ) (plan : Elf32LoadPlan) (options : Elf32LoadOptions) :
    Except Elf32LoadError UInt32 :=
  match plan.type, options.dynamicBase with
  | .executable, _ => .ok 0
  | .dynamic, none => .error .dynamicBaseRequired
  | .dynamic, some dynamicBase => do
    refuse (dynamicBase.toNat % pageSize ≠ 0) .dynamicBaseUnaligned
    refuse (dynamicBase.toNat < plan.minimumPage) .loadBiasOverflow
    let bias := dynamicBase.toNat - plan.minimumPage
    refuse (bias > 0xffffffff ∨ plan.maximumPageEnd > 2 ^ 32 - bias) .loadBiasOverflow
    refuse (plan.requiredLoadBiasAlignment > 1 ∧ bias % plan.requiredLoadBiasAlignment ≠ 0)
      .dynamicBaseUnaligned
    return UInt32.ofNat bias

/-- The loaded entry point; zero stays zero. -/
def biasEntry (loadBias : UInt32) (plan : Elf32LoadPlan) : Except Elf32LoadError UInt32 :=
  if plan.entry ≠ 0 then do
    refuse (plan.entry.toNat + loadBias.toNat > 0xffffffff) .entryAddressOverflow
    return UInt32.ofNat (plan.entry.toNat + loadBias.toNat)
  else .ok 0

/-- The loaded dynamic segment. -/
def biasDynamicSegment (loadBias : UInt32) (plan : Elf32LoadPlan) :
    Except Elf32LoadError (Option Elf32DynamicSegment) :=
  match plan.dynamicSegment with
  | none => .ok none
  | some dynamic => do
    let biasedDynamicStart := dynamic.virtualAddress.toNat + loadBias.toNat
    let biasedDynamicEnd := biasedDynamicStart + dynamic.memorySize.toNat
    refuse (biasedDynamicStart > 0xffffffff ∨ biasedDynamicEnd > 2 ^ 32)
      .dynamicSegmentAddressOverflow
    return some
      { guestAddress := UInt32.ofNat biasedDynamicStart
        fileSize := dynamic.fileSize
        memorySize := dynamic.memorySize }

/-- One loaded `PT_GNU_RELRO` range. -/
def biasRelroSegment (loadBias : UInt32) (raw : Elf32LoadPlanRelroSegment) :
    Except Elf32LoadError Elf32RelroSegment := do
  let guestAddress := raw.virtualAddress.toNat + loadBias.toNat
  let mappingStart := raw.mappingStart.toNat + loadBias.toNat
  let mappingEnd := raw.mappingEnd + loadBias.toNat
  refuse (guestAddress > 0xffffffff ∨ mappingStart > 0xffffffff ∨ mappingEnd > 2 ^ 32)
    .relroSegmentAddressOverflow
  return { guestAddress := UInt32.ofNat guestAddress
           memorySize := raw.memorySize
           mappingStart := UInt32.ofNat mappingStart
           mappingSize := mappingEnd - mappingStart }

/-- One planned segment. -/
def biasSegment (loadBias : UInt32) (raw : Elf32LoadPlanSegment) :
    Except Elf32LoadError PlannedSegment := do
  let guestAddress := raw.virtualAddress.toNat + loadBias.toNat
  let mappingStart := raw.mappingStart.toNat + loadBias.toNat
  let mappingEnd := raw.mappingEnd + loadBias.toNat
  refuse (guestAddress > 0xffffffff ∨ mappingStart > 0xffffffff ∨ mappingEnd > 2 ^ 32)
    .segmentAddressOverflow
  return { raw := raw
           guestAddress := UInt32.ofNat guestAddress
           mappingStart := UInt32.ofNat mappingStart
           mappingEnd := mappingEnd }

/-- What the loader has computed before it looks at the memory. -/
structure BiasedPlan where
  loadBias : UInt32
  entry : UInt32
  dynamicSegment : Option Elf32DynamicSegment
  relroSegments : List Elf32RelroSegment
  plannedSegments : List PlannedSegment
  deriving DecidableEq, Repr

/-- The bias, entry, dynamic, relro and segment computations, in the order of
the source; an empty segment is not planned. -/
def biasPlan (pageSize : ℕ) (plan : Elf32LoadPlan) (options : Elf32LoadOptions) :
    Except Elf32LoadError BiasedPlan := do
  let loadBias ← planLoadBias pageSize plan options
  let entry ← biasEntry loadBias plan
  let dynamicSegment ← biasDynamicSegment loadBias plan
  let relroSegments ← plan.relroSegments.mapM (biasRelroSegment loadBias)
  let plannedSegments ←
    (plan.segments.filter (·.memorySize ≠ 0)).mapM (biasSegment loadBias)
  return { loadBias, entry, dynamicSegment, relroSegments, plannedSegments }

/-- The result of a successful load. -/
def BiasedPlan.result (biased : BiasedPlan) : Elf32LoadResult where
  loadBias := biased.loadBias
  entry := biased.entry
  segments := biased.plannedSegments.map fun planned =>
    { guestAddress := planned.guestAddress
      fileSize := planned.raw.fileSize
      memorySize := planned.raw.memorySize
      mappingStart := planned.mappingStart
      mappingSize := planned.mappingSize
      permissions := planned.raw.permissions }
  dynamicSegment := biased.dynamicSegment
  relroSegments := biased.relroSegments

/-! ### The passes over the memory -/

namespace MappedGuestMemory

/-- Some page of a planned mapping is mapped already. -/
def conflicts (memory : MappedGuestMemory) (plannedSegments : List PlannedSegment) : Bool :=
  plannedSegments.any fun planned =>
    (pageSteps memory.pageSize planned.mappingStart.toNat planned.mappingEnd).any fun page =>
      memory.isMapped (UInt32.ofNat page)

/-- The first pass on one segment: map it for initialization, and note the
range in `mapped_ranges`. -/
def mapSegment (s : List MappedRange × MappedGuestMemory) (planned : PlannedSegment) :
    Bool × List MappedRange × MappedGuestMemory :=
  match s.2.map planned.mappingStart planned.mappingSize (.read ||| .write) with
  | (false, m) => (false, s.1, m)
  | (true, m) => (true, s.1 ++ [planned.range], m)

/-- The zero fill, in chunks of 4096 bytes; `rounds` bounds the rounds of the
loop, each of which writes at least one byte. -/
def zeroFill : ℕ → ℕ → ℕ → MappedGuestMemory → Bool × MappedGuestMemory
  | 0, _, _, memory => (true, memory)
  | rounds + 1, zeroAddress, remaining, memory =>
    if remaining ≠ 0 then
      let chunk := min remaining 4096
      match GuestMemory.write memory (UInt32.ofNat zeroAddress) (List.replicate chunk 0) with
      | (false, m) => (false, m)
      | (true, m) => zeroFill rounds (zeroAddress + chunk) (remaining - chunk) m
    else (true, memory)

/-- The file bytes of a segment. -/
def writeFileBytes (image : List UInt8) (memory : MappedGuestMemory)
    (planned : PlannedSegment) : Bool × MappedGuestMemory :=
  if planned.raw.fileSize ≠ 0 then
    GuestMemory.write memory planned.guestAddress
      ((image.drop planned.raw.offset.toNat).take planned.raw.fileSize.toNat)
  else (true, memory)

/-- The second pass on one segment. -/
def initializeSegment (image : List UInt8) (memory : MappedGuestMemory)
    (planned : PlannedSegment) : Bool × MappedGuestMemory :=
  match memory.writeFileBytes image planned with
  | (false, m) => (false, m)
  | (true, m) =>
    let remaining := planned.raw.memorySize.toNat - planned.raw.fileSize.toNat
    zeroFill remaining (planned.guestAddress.toNat + planned.raw.fileSize.toNat) remaining m

/-- The third pass on one segment. -/
def protectSegment (memory : MappedGuestMemory) (planned : PlannedSegment) :
    Bool × MappedGuestMemory :=
  memory.protect planned.mappingStart planned.mappingSize planned.raw.permissions

/-- The three passes; a pass that fails rolls back what was mapped. -/
def loadSegments (image : List UInt8) (memory : MappedGuestMemory)
    (plannedSegments : List PlannedSegment) :
    Except Elf32LoadError Unit × MappedGuestMemory :=
  match stepAll mapSegment plannedSegments ([], memory) with
  | (false, mapped, m) => (.error .mapFailed, (unmapAll mapped m).2)
  | (true, mapped, m) =>
    match stepAll (initializeSegment image) plannedSegments m with
    | (false, m) => (.error .writeFailed, (unmapAll mapped m).2)
    | (true, m) =>
      match stepAll protectSegment plannedSegments m with
      | (false, m) => (.error .protectFailed, (unmapAll mapped m).2)
      | (true, m) => (.ok (), m)

end MappedGuestMemory

/-- Everything `load_elf32` decides before it touches the memory. -/
def prepareElf32Load (memory : MappedGuestMemory) (image : List UInt8)
    (options : Elf32LoadOptions) : Except Elf32LoadError BiasedPlan := do
  let plan ← planElf32Load memory.pageSize image
  let biased ← biasPlan memory.pageSize plan options
  refuse (memory.conflicts biased.plannedSegments) .addressConflict
  return biased

/-- `load_elf32`. -/
def loadElf32 (memory : MappedGuestMemory) (image : List UInt8) (options : Elf32LoadOptions) :
    Except Elf32LoadError Elf32LoadResult × MappedGuestMemory :=
  match prepareElf32Load memory image options with
  | .error e => (.error e, memory)
  | .ok biased =>
    match memory.loadSegments image biased.plannedSegments with
    | (.error e, m) => (.error e, m)
    | (.ok (), m) => (.ok biased.result, m)

end LibA32Android

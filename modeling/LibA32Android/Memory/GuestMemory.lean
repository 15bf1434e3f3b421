/-
Guest memory (`memory/guest_memory.h`, `memory/guest_memory.cpp`).

* `MemoryPermission`, `hasPermission`: the permission bit set;
* `GuestMemory`: the virtual interface, `read` and `write` of byte spans, and
  `GuestRead`, the read-only programs over it;
* `LawfulGuestMemory`: an interface whose successful reads are exact and whose
  failing writes may spoil the bytes they address, but no others;
* `LinearGuestMemory`: the contiguous test backend;
* `MappedGuestMemory`: the sparse 4 GiB backend, with the page states, the
  bytes of the host reservation, the host page protections and the host calls
  behind `map`, `protect` and `unmap`, each of which may fail.

Guest addresses are `UInt32`, sizes and 64-bit sums are natural numbers.
-/
import LibA32Android.Foundations.Overwrite
import LibA32Android.Foundations.QueryProgram

namespace LibA32Android

open Foundations

/-- A `std::string`: names and identities are byte strings. -/
abbrev ByteString := List UInt8

/-! ### Permissions -/

/-- `MemoryPermission`: a bit set over `Read`, `Write` and `Execute`. -/
structure MemoryPermission where
  raw : UInt8
  deriving DecidableEq, Repr

namespace MemoryPermission

def none : MemoryPermission := ⟨0⟩
def read : MemoryPermission := ⟨1⟩
def write : MemoryPermission := ⟨2⟩
def execute : MemoryPermission := ⟨4⟩

instance : OrOp MemoryPermission := ⟨fun lhs rhs => ⟨lhs.raw ||| rhs.raw⟩⟩
instance : AndOp MemoryPermission := ⟨fun lhs rhs => ⟨lhs.raw &&& rhs.raw⟩⟩

end MemoryPermission

/-- `has_permission`: the two bit sets meet. -/
def hasPermission (permissions permission : MemoryPermission) : Bool :=
  (permissions &&& permission) != MemoryPermission.none

/-! ### The interface -/

/-- `GuestMemory`: a read of a span either fails or delivers the bytes, a write
reports success and leaves a new memory either way. -/
class GuestMemory (M : Type) where
  read : M → UInt32 → ℕ → Option (List UInt8)
  write : M → UInt32 → List UInt8 → Bool × M
  readCode : M → UInt32 → ℕ → Option (List UInt8) := read

/-- A read-only program over guest memory (`const GuestMemory&`): its
questions are the reads it makes. -/
abbrev GuestRead (ε α : Type) := QueryProgram (UInt32 × ℕ) (List UInt8) ε α

/-- `memory.read(address, span)` inside a read-only program. -/
def readBytes {ε : Type} (address : UInt32) (length : ℕ) :
    GuestRead ε (Option (List UInt8)) :=
  QueryProgram.query (address, length)

/-- The reads a memory answers. -/
def GuestMemory.reads {M : Type} [GuestMemory M] (memory : M) :
    UInt32 × ℕ → Option (List UInt8) :=
  fun q => GuestMemory.read memory q.1 q.2

/-- A guest memory with a byte at every address: a successful read is exact, a
successful write is exact, and a failing write may leave anything in the bytes
it addresses but touches no others. -/
class LawfulGuestMemory (M : Type) extends GuestMemory M where
  bytes : M → ℕ → UInt8
  read_exact : ∀ {m : M} {a : UInt32} {n : ℕ} {out : List UInt8},
    read m a n = some out → out = window (bytes m) a.toNat n
  write_ok : ∀ {m m' : M} {a : UInt32} {input : List UInt8},
    write m a input = (true, m') → bytes m' = overwrite (bytes m) a.toNat input
  write_failed : ∀ {m m' : M} {a : UInt32} {input : List UInt8},
    write m a input = (false, m') →
      ∀ x, x < a.toNat ∨ a.toNat + input.length ≤ x → bytes m' x = bytes m x

/-! ### The contiguous backend -/

/-- `LinearGuestMemory`: the constructor refuses a size that does not fit
above the base. -/
structure LinearGuestMemory where
  base : UInt32
  bytes : List UInt8
  size_le : bytes.length ≤ 2 ^ 32 - base.toNat

namespace LinearGuestMemory

/-- `translate`: the offset of a span inside the vector. -/
def translate (m : LinearGuestMemory) (address : UInt32) (length : ℕ) : Option ℕ :=
  if address < m.base then none
  else
    let translated := address.toNat - m.base.toNat
    if translated > m.bytes.length then none
    else if length > m.bytes.length - translated then none
    else some translated

/-- Copying a list over the bytes from an offset on keeps the size. -/
def copyAt (m : LinearGuestMemory) (offset : ℕ) (input : List UInt8) : LinearGuestMemory where
  base := m.base
  bytes := m.bytes.mapIdx fun i byte =>
    if offset ≤ i then (input[i - offset]?).getD byte else byte
  size_le := by simpa using m.size_le

instance : GuestMemory LinearGuestMemory where
  read m address length :=
    (m.translate address length).map fun offset => (m.bytes.drop offset).take length
  write m address input :=
    match m.translate address input.length with
    | none => (false, m)
    | some offset => (true, m.copyAt offset input)

end LinearGuestMemory

/-! ### The sparse backend: state -/

/-- The host protection of one page (`PROT_READ`, `PROT_WRITE`, `PROT_EXEC`). -/
structure HostProtection where
  read : Bool
  write : Bool
  execute : Bool
  deriving DecidableEq, Repr

namespace HostProtection

/-- `PROT_NONE`. -/
def none : HostProtection := ⟨false, false, false⟩

end HostProtection

/-- The host calls of the page operations, by the operation that makes them. -/
inductive HostCall where
  | mapMprotect
  | protectMprotect
  | unmapMadvise
  | unmapMprotect
  deriving DecidableEq, Repr

/-- `MappedGuestMemory`: the page size (which the constructor requires to
divide the address space), one state byte per page, the bytes of the
reservation by guest address, and on the host side the page protections, the
number of host calls made so far and the host's answer to each of them. -/
structure MappedGuestMemory where
  pageSize : ℕ
  pageState : ℕ → UInt8
  reservation : ℕ → UInt8
  hostProtection : ℕ → HostProtection
  hostCalls : ℕ
  host : ℕ → HostCall → Bool
  pageSize_dvd : pageSize ∣ 2 ^ 32

/-- `encode_page_state`: the mapped bit and the permissions in one byte. -/
def encodePageState (permissions : MemoryPermission) : UInt8 := 0x80 ||| permissions.raw

/-- `page_is_mapped`. -/
def pageIsMapped (state : UInt8) : Bool := (state &&& 0x80) != 0

/-- `decode_permissions` of `guest_memory.cpp`. -/
def decodePermissions (state : UInt8) : MemoryPermission := ⟨state &&& 7⟩

/-- The values of `page` in `for (page = start; page < end; page += page_size)`. -/
def pageSteps (pageSize start stop : ℕ) : List ℕ :=
  (List.range ((stop - start + (pageSize - 1)) / pageSize)).map fun i => start + i * pageSize

namespace MappedGuestMemory

/-- The usual page size of a host. -/
lemma fourKiB_dvd : 4096 ∣ 2 ^ 32 := by decide

/-- The constructor: a reservation of zero bytes with no page mapped. -/
def create (pageSize : ℕ) (host : ℕ → HostCall → Bool) (pageSize_dvd : pageSize ∣ 2 ^ 32) :
    MappedGuestMemory where
  pageSize := pageSize
  pageState := fun _ => 0
  reservation := fun _ => 0
  hostProtection := fun _ => .none
  hostCalls := 0
  host := host
  pageSize_dvd := pageSize_dvd

/-- `page_index`. -/
def pageIndex (m : MappedGuestMemory) (address : UInt32) : ℕ := address.toNat / m.pageSize

/-- `is_mapped`. -/
def isMapped (m : MappedGuestMemory) (address : UInt32) : Bool :=
  pageIsMapped (m.pageState (m.pageIndex address))

/-- `permissions`. -/
def permissions (m : MappedGuestMemory) (address : UInt32) : MemoryPermission :=
  let state := m.pageState (m.pageIndex address)
  if pageIsMapped state then decodePermissions state else .none

/-- `valid_page_range`: the end is a 64-bit sum, which a large length wraps. -/
def validPageRange (m : MappedGuestMemory) (address : UInt32) (length : ℕ) : Bool :=
  if length = 0 ∨ m.pageSize = 0 ∨ address.toNat % m.pageSize ≠ 0
      ∨ length % m.pageSize ≠ 0 then
    false
  else
    decide ((address.toNat + length) % 2 ^ 64 ≤ 2 ^ 32)

/-- `valid_access`: every page the span touches is mapped with the required
permission.  A span is a real buffer, so its end does not wrap. -/
def validAccess (m : MappedGuestMemory) (address : UInt32) (length : ℕ)
    (required : MemoryPermission) : Bool :=
  if length = 0 then true
  else if address.toNat + length > 2 ^ 32 then false
  else
    let first := m.pageIndex address
    let last := (address.toNat + length - 1) / m.pageSize
    (List.range (last + 1 - first)).all fun index =>
      pageIsMapped (m.pageState (first + index))
        && hasPermission (decodePermissions (m.pageState (first + index))) required

/-- `valid_permissions`: no unknown bit, and `Write` or `Execute` only along
with `Read`. -/
def validPermissions (permissions : MemoryPermission) : Bool :=
  if permissions.raw &&& ~~~7 ≠ 0 then false
  else if (hasPermission permissions .write || hasPermission permissions .execute)
      && !hasPermission permissions .read then false
  else true

/-- `host_protection`: guest code is never host-executable. -/
def hostProtectionOf (permissions : MemoryPermission) : HostProtection where
  read := hasPermission permissions .read || hasPermission permissions .execute
  write := hasPermission permissions .write
  execute := false

/-! ### The sparse backend: operations -/

/-- `mprotect` on a page range: all or nothing. -/
def mprotect (m : MappedGuestMemory) (call : HostCall) (address : UInt32) (length : ℕ)
    (protection : HostProtection) : Bool × MappedGuestMemory :=
  if m.host m.hostCalls call then
    (true, { m with
      hostCalls := m.hostCalls + 1
      hostProtection :=
        fill m.hostProtection (m.pageIndex address) (length / m.pageSize) protection })
  else (false, { m with hostCalls := m.hostCalls + 1 })

/-- `madvise(MADV_DONTNEED)` on a page range of the private anonymous
reservation: all or nothing, and the bytes read as zero afterwards. -/
def madviseDontneed (m : MappedGuestMemory) (address : UInt32) (length : ℕ) :
    Bool × MappedGuestMemory :=
  if m.host m.hostCalls .unmapMadvise then
    (true, { m with
      hostCalls := m.hostCalls + 1
      reservation := fill m.reservation address.toNat length 0 })
  else (false, { m with hostCalls := m.hostCalls + 1 })

/-- `std::fill_n` on the page states. -/
def fillPageState (m : MappedGuestMemory) (first count : ℕ) (state : UInt8) :
    MappedGuestMemory :=
  { m with pageState := fill m.pageState first count state }

/-- The common body of `map` and `protect`: validate, refuse when some page of
the range is `wrong` for the operation, change the host pages, then the page
states. -/
def setPages (m : MappedGuestMemory) (call : HostCall) (wrong : UInt8 → Bool)
    (address : UInt32) (length : ℕ) (permissions : MemoryPermission) :
    Bool × MappedGuestMemory :=
  if !m.validPageRange address length || !validPermissions permissions then (false, m)
  else if (List.range (length / m.pageSize)).any fun index =>
      wrong (m.pageState (m.pageIndex address + index)) then
    (false, m)
  else
    match m.mprotect call address length (hostProtectionOf permissions) with
    | (false, m') => (false, m')
    | (true, m') =>
      (true, m'.fillPageState (m.pageIndex address) (length / m.pageSize)
        (encodePageState permissions))

/-- `MappedGuestMemory::map`: a page that is mapped already is in the way. -/
def map (m : MappedGuestMemory) (address : UInt32) (length : ℕ)
    (permissions : MemoryPermission) : Bool × MappedGuestMemory :=
  m.setPages .mapMprotect pageIsMapped address length permissions

/-- `MappedGuestMemory::protect`: every page must be mapped. -/
def protect (m : MappedGuestMemory) (address : UInt32) (length : ℕ)
    (permissions : MemoryPermission) : Bool × MappedGuestMemory :=
  m.setPages .protectMprotect (fun state => !pageIsMapped state) address length permissions

/-- `MappedGuestMemory::unmap`. -/
def unmap (m : MappedGuestMemory) (address : UInt32) (length : ℕ) :
    Bool × MappedGuestMemory :=
  if !m.validPageRange address length then (false, m)
  else if (List.range (length / m.pageSize)).any fun index =>
      !pageIsMapped (m.pageState (m.pageIndex address + index)) then
    (false, m)
  else
    match m.madviseDontneed address length with
    | (false, m') => (false, m')
    | (true, m') =>
      match m'.mprotect .unmapMprotect address length HostProtection.none with
      | (false, m'') => (false, m'')
      | (true, m'') =>
        (true, m''.fillPageState (m.pageIndex address) (length / m.pageSize) 0)

instance : GuestMemory MappedGuestMemory where
  read m address length :=
    if m.validAccess address length .read then
      some (window m.reservation address.toNat length)
    else none
  write m address input :=
    if m.validAccess address input.length .write then
      (true, { m with reservation := overwrite m.reservation address.toNat input })
    else (false, m)
  readCode m address length :=
    if m.validAccess address length .execute then
      some (window m.reservation address.toNat length)
    else none

end MappedGuestMemory

end LibA32Android

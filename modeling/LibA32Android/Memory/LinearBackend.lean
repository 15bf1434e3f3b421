/-
The contiguous and the sparse backend.

* `LinearGuestMemory.read_eq`, `LinearGuestMemory.write_eq`: the contiguous backend serves
  the spans inside its range;
* `MappedGuestMemory.OnlyMapping`: one range is mapped and nothing else, and
  `map_onlyMapping`: a new memory after one `map`;
* `Agree`: the contiguous memory and the sparse one with the same range hold the same
  bytes, and every call keeps that;
* `backends_agree`: they answer every sequence of accesses alike.
-/
import LibA32Android.Foundations.BoundedRun
import LibA32Android.Memory.Mapped

namespace LibA32Android

open Foundations

/-! ### Accesses -/

/-- A call of the `read` or `write` of a memory. -/
inductive AccessCall where
  | read (address : UInt32) (length : ℕ)
  | write (address : UInt32) (input : List UInt8)
  deriving DecidableEq, Repr

/-- The size of the span of a call. -/
def AccessCall.length : AccessCall → ℕ
  | .read _ length => length
  | .write _ input => input.length

/-- What a call returns: the flag, and the bytes of a read that succeeded. -/
inductive AccessAnswer where
  | read (output : Option (List UInt8))
  | write (succeeded : Bool)
  deriving DecidableEq, Repr

/-- One call. -/
def access {M : Type} [GuestMemory M] (memory : M) : AccessCall → AccessAnswer × M
  | .read address length => (.read (GuestMemory.read memory address length), memory)
  | .write address input =>
    (.write (GuestMemory.write memory address input).1,
      (GuestMemory.write memory address input).2)

/-! ### The contiguous backend -/

namespace LinearGuestMemory

/-- The constructor: zero bytes, unless they do not fit above the base. -/
def create (size : ℕ) (base : UInt32) : Option LinearGuestMemory :=
  if h : size ≤ 2 ^ 32 - base.toNat then
    some ⟨base, List.replicate size 0, by rwa [List.length_replicate]⟩
  else none

variable {m : LinearGuestMemory} {address : UInt32} {length : ℕ} {input : List UInt8}

/-- The byte at an address, zero outside the range. -/
def byteAt (m : LinearGuestMemory) (x : ℕ) : UInt8 :=
  if m.base.toNat ≤ x then m.bytes.getD (x - m.base.toNat) 0 else 0

/-- The addresses of the vector. -/
def Contains (m : LinearGuestMemory) (address : UInt32) (length : ℕ) : Prop :=
  m.base.toNat ≤ address.toNat ∧ address.toNat + length ≤ m.base.toNat + m.bytes.length

instance (m : LinearGuestMemory) (address : UInt32) (length : ℕ) :
    Decidable (m.Contains address length) :=
  inferInstanceAs (Decidable (_ ∧ _))

lemma translate_eq : m.translate address length
    = if m.Contains address length then some (address.toNat - m.base.toNat) else none := by
  rw [translate]
  by_cases h : m.Contains address length
  · obtain ⟨hbase, hend⟩ := h
    have hlt : ¬address < m.base := by rwa [UInt32.lt_iff_toNat_lt, Nat.not_lt]
    rw [if_neg hlt]
    dsimp only
    rw [if_neg (by omega), if_neg (by omega), if_pos ⟨hbase, hend⟩]
  · rw [if_neg h]
    split
    · rfl
    rename_i hlt
    rw [UInt32.lt_iff_toNat_lt] at hlt
    rw [Contains] at h
    dsimp only
    split
    · rfl
    · rw [if_pos (by omega)]

lemma read_eq : GuestMemory.read m address length
    = if m.Contains address length then some (window m.byteAt address.toNat length) else none := by
  change (m.translate address length).map _ = _
  rw [translate_eq]
  by_cases h : m.Contains address length
  · obtain ⟨hbase, hend⟩ := h
    rw [if_pos ⟨hbase, hend⟩, if_pos ⟨hbase, hend⟩, Option.map_some, Option.some.injEq]
    refine List.ext_getElem (by simp; omega) fun i hi hi' => ?_
    rw [window_length] at hi'
    simp only [List.getElem_take, List.getElem_drop, window, List.getElem_map, List.getElem_range,
      byteAt]
    rw [if_pos (by omega), List.getD_eq_getElem _ _ (by omega)]
    congr 1
    omega
  · rw [if_neg h, if_neg h, Option.map_none]

/-- Copying into the range is writing at its addresses. -/
lemma byteAt_copyAt (h : m.Contains address input.length) :
    (m.copyAt (address.toNat - m.base.toNat) input).byteAt
      = overwrite m.byteAt address.toNat input := by
  obtain ⟨hbase, hend⟩ := h
  have hcopy : (m.copyAt (address.toNat - m.base.toNat) input).base = m.base := rfl
  funext x
  rw [byteAt, hcopy]
  rcases Nat.lt_or_ge x m.base.toNat with hx | hx
  · rw [if_neg (by omega), overwrite_of_outside (by omega), byteAt, if_neg (by omega)]
  rw [if_pos hx, List.getD_eq_getElem?_getD]
  show ((m.bytes.mapIdx _)[x - m.base.toNat]?).getD 0 = _
  rw [List.getElem?_mapIdx, overwrite, byteAt, if_pos hx, List.getD_eq_getElem?_getD]
  have hle : address.toNat - m.base.toNat ≤ x - m.base.toNat ↔ address.toNat ≤ x := by omega
  have hsub : x - m.base.toNat - (address.toNat - m.base.toNat) = x - address.toNat := by omega
  cases hget : m.bytes[x - m.base.toNat]? with
  | some byte =>
      simp only [Option.map_some, Option.getD_some, hle, hsub]
  | none =>
      -- behind the vector, so behind the span
      have hsize := List.getElem?_eq_none_iff.mp hget
      have hinput : input[x - address.toNat]? = none := List.getElem?_eq_none (by omega)
      simp [hinput]

lemma write_eq : GuestMemory.write m address input
    = if m.Contains address input.length then
        (true, m.copyAt (address.toNat - m.base.toNat) input)
      else (false, m) := by
  simp only [GuestMemory.write]
  rw [translate_eq]
  by_cases h : m.Contains address input.length
  · rw [if_pos h, if_pos h]
  · rw [if_neg h, if_neg h]

instance : LawfulGuestMemory LinearGuestMemory where
  bytes := byteAt
  read_exact {m a n out} h := by
    change GuestMemory.read m a n = some out at h
    rw [read_eq] at h
    split at h
    · exact (Option.some.inj h).symm
    · cases h
  write_ok {m m' a input} h := by
    change GuestMemory.write m a input = (true, m') at h
    rw [write_eq] at h
    split at h
    · cases h
      exact byteAt_copyAt ‹_›
    · cases h
  write_failed {m m' a input} h x _ := by
    change GuestMemory.write m a input = (false, m') at h
    rw [write_eq] at h
    split at h
    · cases h
    · cases h
      rfl

lemma create_of_fits {size : ℕ} {base : UInt32} (h : base.toNat + size ≤ 2 ^ 32) :
    ∃ m, create size base = some m ∧ m.base = base ∧ m.bytes = List.replicate size 0 := by
  have hsize : size ≤ 2 ^ 32 - base.toNat := by omega
  exact ⟨_, dif_pos hsize, rfl, rfl⟩

end LinearGuestMemory

/-! ### One mapping -/

namespace MappedGuestMemory

/-- The range is mapped with the permissions, and nothing else is mapped. -/
structure OnlyMapping (m : MappedGuestMemory) (base : UInt32) (size : ℕ)
    (permissions : MemoryPermission) : Prop where
  isMapped_iff : ∀ address : UInt32, m.isMapped address = true
    ↔ base.toNat ≤ address.toNat ∧ address.toNat < base.toNat + size
  permissions_eq : ∀ address : UInt32, m.isMapped address = true →
    m.permissions address = permissions

variable {m : MappedGuestMemory} {base address : UInt32} {size length : ℕ}
  {permissions required : MemoryPermission}

/-- What grants an access are the addresses of the range. -/
lemma OnlyMapping.grants_iff (h : m.OnlyMapping base size permissions)
    (hrequired : hasPermission permissions required = true) {x : ℕ} (hx : x < 2 ^ 32) :
    m.Grants required (x / m.pageSize) ↔ base.toNat ≤ x ∧ x < base.toNat + size := by
  have htoNat : (UInt32.ofNat x).toNat = x := UInt32.toNat_ofNat_of_lt' hx
  have hmapped := h.isMapped_iff (UInt32.ofNat x)
  have hpermissions := h.permissions_eq (UInt32.ofNat x)
  rw [isMapped_eq, pageIndex, htoNat] at hmapped hpermissions
  rw [MappedGuestMemory.permissions_eq, pageIndex, htoNat] at hpermissions
  rw [MappedGuestMemory.grants_iff, ← hmapped]
  constructor
  · rintro ⟨_, hsome, -⟩
    rw [hsome]
    rfl
  · intro hsome
    obtain ⟨found, hfound⟩ := Option.isSome_iff_exists.mp hsome
    rw [hfound] at hpermissions
    have heq : found = permissions := hpermissions rfl
    exact ⟨found, hfound, heq ▸ hrequired⟩

/-- A span that is not empty is served when it lies in the range. -/
lemma OnlyMapping.validAccess_iff (h : m.OnlyMapping base size permissions)
    (hrequired : hasPermission permissions required = true) (hend : base.toNat + size ≤ 2 ^ 32)
    (hlength : 0 < length) :
    m.validAccess address length required = true
      ↔ base.toNat ≤ address.toNat ∧ address.toNat + length ≤ base.toNat + size := by
  rw [MappedGuestMemory.validAccess_iff]
  constructor
  · rintro (hzero | ⟨hspace, hall⟩)
    · omega
    · have hfirst := (h.grants_iff hrequired (by omega)).mp (hall address.toNat le_rfl (by omega))
      have hlast := (h.grants_iff hrequired (by omega)).mp
        (hall (address.toNat + length - 1) (by omega) (by omega))
      omega
  · rintro ⟨hbase, hin⟩
    refine .inr ⟨by omega, fun x hx hlt => ?_⟩
    exact (h.grants_iff hrequired (by omega)).mpr ⟨by omega, by omega⟩

lemma OnlyMapping.withBytes (h : m.OnlyMapping base size permissions) (bytes : ℕ → UInt8) :
    (m.withBytes bytes).OnlyMapping base size permissions := ⟨h.isMapped_iff, h.permissions_eq⟩

/-- A new memory after one `map`. -/
lemma map_onlyMapping {pageSize : ℕ} {host : ℕ → HostCall → Bool} {hdvd : pageSize ∣ 2 ^ 32}
    (hsize : size ≤ 2 ^ 32) (h : (create pageSize host hdvd).map base size permissions = (true, m)) :
    m.OnlyMapping base size permissions ∧ ∀ x, m.reservation x = 0 := by
  obtain ⟨hvalid, hpermissions, -, hoff, hpages, hbytes⟩ := map_ok h
  have hbase := base.toNat_lt
  have hrange := isPageRange_of_valid hvalid (by omega)
  have hpage : ∀ address : UInt32, m.pageIndex address ∈ (create pageSize host hdvd).pages base size
      ↔ base.toNat ≤ address.toNat ∧ address.toNat < base.toNat + size := fun address => by
    rw [← hrange.mem_pages_iff, hoff.pageIndex]
    rfl
  have hinside : ∀ address : UInt32,
      m.pageIndex address ∈ (create pageSize host hdvd).pages base size →
      m.mappedPermissions (m.pageIndex address) = some permissions := fun address hin =>
    mappedPermissions_encode hpermissions (hpages _ hin)
  have houtside : ∀ address : UInt32,
      m.pageIndex address ∉ (create pageSize host hdvd).pages base size →
      m.mappedPermissions (m.pageIndex address) = none := fun address hout => by
    rw [hoff.mappedPermissions hout]
    simp [mappedPermissions, create]
  have hmapped : ∀ address : UInt32, m.isMapped address = true
      ↔ m.pageIndex address ∈ (create pageSize host hdvd).pages base size := by
    intro address
    rw [isMapped_eq]
    refine ⟨fun hsome => ?_, fun hin => ?_⟩
    · by_contra hout
      rw [houtside address hout] at hsome
      cases hsome
    · rw [hinside address hin]
      rfl
  refine ⟨⟨fun address => (hmapped address).trans (hpage address), fun address h => ?_⟩,
    fun x => congrFun hbytes x⟩
  rw [MappedGuestMemory.permissions_eq, hinside address ((hmapped address).mp h)]
  rfl

end MappedGuestMemory

/-! ### Agreement -/

/-- The sparse memory has the range of the contiguous one as its only mapping, with the same
bytes in it. -/
structure Agree (linear : LinearGuestMemory) (mapped : MappedGuestMemory) : Prop where
  only : mapped.OnlyMapping linear.base linear.bytes.length (.read ||| .write)
  bytes : ∀ x, linear.base.toNat ≤ x → x < linear.base.toNat + linear.bytes.length →
    linear.byteAt x = mapped.reservation x

namespace Agree

variable {linear : LinearGuestMemory} {mapped : MappedGuestMemory} {address : UInt32}
  {length : ℕ} {input : List UInt8} {required : MemoryPermission}

lemma validAccess_iff (h : Agree linear mapped)
    (hrequired : hasPermission (.read ||| .write) required = true) (hlength : 0 < length) :
    mapped.validAccess address length required = true ↔ linear.Contains address length := by
  have hsize := linear.size_le
  have hbase := linear.base.toNat_lt
  exact h.only.validAccess_iff hrequired (by omega) hlength

lemma read (h : Agree linear mapped) (hlength : 0 < length) :
    GuestMemory.read linear address length = GuestMemory.read mapped address length := by
  have hvalid : mapped.validAccess address length .read = true ↔ linear.Contains address length :=
    h.validAccess_iff (by decide) hlength
  change _ = if mapped.validAccess address length .read = true then _ else _
  rw [LinearGuestMemory.read_eq]
  by_cases hin : linear.Contains address length
  · rw [if_pos hin, if_pos (hvalid.mpr hin)]
    obtain ⟨hbase, hend⟩ := hin
    refine congrArg some (window_congr fun x hx hlt => ?_)
    exact h.bytes x (by omega) (by omega)
  · rw [if_neg hin, if_neg fun hv => hin (hvalid.mp hv)]

/-- Writes have the same flag, and keep the agreement. -/
lemma write (h : Agree linear mapped) (address : UInt32) (hlength : 0 < input.length) :
    (GuestMemory.write linear address input).1 = (GuestMemory.write mapped address input).1
      ∧ Agree (GuestMemory.write linear address input).2
          (GuestMemory.write mapped address input).2 := by
  have hvalid : mapped.validAccess address input.length .write = true
      ↔ linear.Contains address input.length := h.validAccess_iff (by decide) hlength
  have hwrite : GuestMemory.write mapped address input
      = if mapped.validAccess address input.length .write = true then
          (true, mapped.withBytes (overwrite mapped.reservation address.toNat input))
        else (false, mapped) := rfl
  rw [LinearGuestMemory.write_eq, hwrite]
  by_cases hin : linear.Contains address input.length
  · rw [if_pos hin, if_pos (hvalid.mpr hin)]
    have hlength' : (linear.copyAt (address.toNat - linear.base.toNat) input).bytes.length
        = linear.bytes.length := List.length_mapIdx
    refine ⟨rfl, ⟨?_, fun x hx hlt => ?_⟩⟩
    · rw [hlength']
      exact h.only.withBytes _
    · rw [hlength'] at hlt
      rw [LinearGuestMemory.byteAt_copyAt hin, MappedGuestMemory.withBytes_reservation, overwrite,
        overwrite, h.bytes x hx hlt]
  · rw [if_neg hin, if_neg fun hv => hin (hvalid.mp hv)]
    exact ⟨rfl, h⟩

/-- A call is answered alike, and keeps the agreement. -/
lemma access (h : Agree linear mapped) {call : AccessCall} (hspan : 0 < call.length) :
    (access linear call).1 = (LibA32Android.access mapped call).1
      ∧ Agree (LibA32Android.access linear call).2 (LibA32Android.access mapped call).2 := by
  cases call with
  | read address length => exact ⟨congrArg AccessAnswer.read (h.read hspan), h⟩
  | write address input =>
      obtain ⟨hflag, hnext⟩ := h.write address hspan
      exact ⟨congrArg AccessAnswer.write hflag, hnext⟩

end Agree

/-- **The two backends agree.**  Let the only mapping of a sparse memory be a range of the
address space with `Read` and `Write`, all zero.  The contiguous memory of that range gives
the same answers to every sequence of reads and writes of non-empty spans, wherever they
start and end. -/
theorem backends_agree {base : UInt32} {size : ℕ} (hend : base.toNat + size ≤ 2 ^ 32)
    {mapped : MappedGuestMemory} (honly : mapped.OnlyMapping base size (.read ||| .write))
    (hzero : ∀ x, base.toNat ≤ x → x < base.toNat + size → mapped.reservation x = 0)
    {calls : List AccessCall} (hspans : ∀ call ∈ calls, 0 < call.length) :
    ∃ linear, LinearGuestMemory.create size base = some linear
      ∧ answers access linear calls = answers access mapped calls := by
  obtain ⟨linear, hcreate, rfl, hbytes⟩ := LinearGuestMemory.create_of_fits hend
  have hlength : linear.bytes.length = size := by rw [hbytes, List.length_replicate]
  refine ⟨linear, hcreate, ?_⟩
  refine answers_eq_of_simulation (fun _ _ _ hspan h => Agree.access h hspan) hspans ⟨?_, ?_⟩
  · rwa [hlength]
  · intro x hx hlt
    rw [hlength] at hlt
    rw [hzero x hx hlt, LinearGuestMemory.byteAt, if_pos hx, hbytes, List.getD_eq_getElem?_getD,
      List.getElem?_replicate]
    split
    · rfl
    · rfl

/-- Two pages at `0x1000`, and accesses inside them, over their ends and past the address
space. -/
def boundaryCalls : List AccessCall :=
  [.write 0x2fff [7], .read 0x2ffe 2, .write 0x2fff [8, 9], .read 0x0fff 2, .read 0xffffffff 2]

theorem backends_agree_boundary :
    ∃ linear, LinearGuestMemory.create 0x2000 0x1000 = some linear
      ∧ answers access linear boundaryCalls
        = [.write true, .read (some [0, 7]), .write false, .read none, .read none] := by
  have hmap : ((MappedGuestMemory.create 4096 (fun _ _ => true) MappedGuestMemory.fourKiB_dvd).map
      0x1000 0x2000 (.read ||| .write)).1 = true := by decide
  obtain ⟨honly, hzero⟩ := MappedGuestMemory.map_onlyMapping (by decide) (Prod.ext hmap rfl)
  obtain ⟨linear, hcreate, hanswers⟩ := backends_agree (by decide) honly
    (fun x _ _ => hzero x) (by decide : ∀ call ∈ boundaryCalls, 0 < call.length)
  exact ⟨linear, hcreate, hanswers.trans (by decide)⟩

end LibA32Android

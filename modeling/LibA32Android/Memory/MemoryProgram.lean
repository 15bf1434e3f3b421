/-
Code behind the interface of a guest memory.

The translator and the services of the host get a `GuestMemory&`: they can read, fetch and
write through it, and nothing else.  Such code is a program over the calls of the interface.

* `MemoryCall`, `MemoryCall.respond`: the calls, and how a memory answers them;
* `MappedGuestMemory.WrittenTo`: only bytes of writable pages differ, and every call leaves
  the sparse backend so (`WrittenTo.respond`);
* `MappedGuestMemory.LooksAlike`: the same pages with the same bytes wherever they can be
  read or fetched; no call can tell such memories apart (`LooksAlike.respond`);
* `AgreeFully`: the contiguous memory and a sparse one whose only mapping has the same range
  and bytes; no call with a non-empty span can tell them apart (`AgreeFully.respond`).
-/
import LibA32Android.Foundations.Interaction
import LibA32Android.Memory.LinearBackend

namespace LibA32Android

open Foundations

/-! ### Programs -/

/-- A call of `GuestMemory`. -/
inductive MemoryCall where
  | read (address : UInt32) (length : ℕ)
  | readCode (address : UInt32) (length : ℕ)
  | write (address : UInt32) (input : List UInt8)

namespace MemoryCall

/-- What a call returns: the bytes, unless it fails, or the flag of a write. -/
def Answer : MemoryCall → Type
  | .read _ _ => Option (List UInt8)
  | .readCode _ _ => Option (List UInt8)
  | .write _ _ => Bool

/-- Where the span of a call starts. -/
def address : MemoryCall → UInt32
  | .read address _ => address
  | .readCode address _ => address
  | .write address _ => address

/-- The size of the span of a call. -/
def length : MemoryCall → ℕ
  | .read _ length => length
  | .readCode _ length => length
  | .write _ input => input.length

/-- How a memory answers a call. -/
def respond {M : Type} [GuestMemory M] : (call : MemoryCall) → M → call.Answer × M
  | .read address length, memory => (GuestMemory.read memory address length, memory)
  | .readCode address length, memory => (GuestMemory.readCode memory address length, memory)
  | .write address input, memory => GuestMemory.write memory address input

end MemoryCall

/-- Code that has a `GuestMemory&`. -/
abbrev MemoryProgram : Type → Type := Interaction MemoryCall MemoryCall.Answer

namespace MemoryProgram

variable {α M : Type} [GuestMemory M]

/-- `memory.read`. -/
def read (address : UInt32) (length : ℕ) : MemoryProgram (Option (List UInt8)) :=
  Interaction.perform (MemoryCall.read address length)

/-- `memory.read_code`. -/
def readCode (address : UInt32) (length : ℕ) : MemoryProgram (Option (List UInt8)) :=
  Interaction.perform (MemoryCall.readCode address length)

/-- `memory.write`. -/
def write (address : UInt32) (input : List UInt8) : MemoryProgram Bool :=
  Interaction.perform (MemoryCall.write address input)

/-- The run on a memory. -/
def runOn (p : MemoryProgram α) (memory : M) : α × M := Interaction.run MemoryCall.respond p memory

/-- No call of the program has an empty span. -/
def SpansNonempty (p : MemoryProgram α) : Prop := p.Makes fun call => 0 < call.length

end MemoryProgram

/-! ### What a program can change -/

namespace MappedGuestMemory

variable {m m' m'' : MappedGuestMemory}

/-- Only bytes of writable pages differ. -/
def WrittenTo (m m' : MappedGuestMemory) : Prop :=
  ∃ bytes, m' = m.withBytes bytes
    ∧ ∀ x, ¬m.Grants .write (x / m.pageSize) → bytes x = m.reservation x

namespace WrittenTo

lemma refl (m : MappedGuestMemory) : m.WrittenTo m := ⟨m.reservation, rfl, fun _ _ => rfl⟩

lemma trans (h : m.WrittenTo m') (h' : m'.WrittenTo m'') : m.WrittenTo m'' := by
  obtain ⟨bytes, rfl, hbytes⟩ := h
  obtain ⟨bytes', rfl, hbytes'⟩ := h'
  exact ⟨bytes', rfl, fun x hx => (hbytes' x hx).trans (hbytes x hx)⟩

/-- A write of the interface reaches writable pages only. -/
lemma write (m : MappedGuestMemory) (address : UInt32) (input : List UInt8) :
    m.WrittenTo (GuestMemory.write m address input).2 := by
  rcases hwrite : GuestMemory.write m address input with ⟨_ | _, m'⟩
  · obtain ⟨-, rfl⟩ := write_eq_false hwrite
    exact .refl m'
  · obtain ⟨hvalid, rfl⟩ := write_eq_true hwrite
    refine ⟨_, rfl, fun x hx => overwrite_of_outside ?_⟩
    rw [validAccess_iff] at hvalid
    by_contra hin
    rcases hvalid with hempty | ⟨-, hall⟩
    · omega
    · exact hx (hall x (by omega) (by omega))

/-- So does every call. -/
lemma respond (h : m.WrittenTo m') (call : MemoryCall) : m.WrittenTo (call.respond m').2 := by
  cases call with
  | read address length => exact h
  | readCode address length => exact h
  | write address input => exact h.trans (.write m' address input)

end WrittenTo

/-! ### What a program can see -/

/-- The same pages, and the same bytes wherever a page can be read or fetched. -/
structure LooksAlike (m m' : MappedGuestMemory) : Prop where
  pageSize : m'.pageSize = m.pageSize
  pageState : m'.pageState = m.pageState
  bytes : ∀ x, m.Grants .read (x / m.pageSize) ∨ m.Grants .execute (x / m.pageSize) →
    m'.reservation x = m.reservation x

namespace LooksAlike

variable {address : UInt32} {length : ℕ} {required : MemoryPermission}

lemma grants (h : m.LooksAlike m') (page : ℕ) :
    m'.Grants required page ↔ m.Grants required page := by
  rw [Grants, Grants, Mapped, Mapped, h.pageState]

lemma validAccess (h : m.LooksAlike m') :
    m'.validAccess address length required = m.validAccess address length required := by
  rw [Bool.eq_iff_iff, validAccess_iff, validAccess_iff, h.pageSize]
  simp only [h.grants]

/-- What is granted to be read or fetched is the same. -/
lemma window (h : m.LooksAlike m') (hrequired : required = .read ∨ required = .execute)
    (hvalid : m.validAccess address length required = true) :
    Foundations.window m'.reservation address.toNat length
      = Foundations.window m.reservation address.toNat length := by
  refine window_congr fun x hx hlt => h.bytes x ?_
  rcases validAccess_iff.mp hvalid with hempty | ⟨-, hall⟩
  · omega
  · rcases hrequired with rfl | rfl
    · exact .inl (hall x hx hlt)
    · exact .inr (hall x hx hlt)

lemma read (h : m.LooksAlike m') (address : UInt32) (length : ℕ) :
    GuestMemory.read m address length = GuestMemory.read m' address length := by
  change (if m.validAccess address length .read then some _ else none)
    = if m'.validAccess address length .read then some _ else none
  rw [h.validAccess]
  split
  · rename_i hvalid
    rw [h.window (.inl rfl) hvalid]
  · rfl

lemma readCode (h : m.LooksAlike m') (address : UInt32) (length : ℕ) :
    GuestMemory.readCode m address length = GuestMemory.readCode m' address length := by
  change (if m.validAccess address length .execute then some _ else none)
    = if m'.validAccess address length .execute then some _ else none
  rw [h.validAccess]
  split
  · rename_i hvalid
    rw [h.window (.inr rfl) hvalid]
  · rfl

/-- The same write has the same flag, and leaves them alike. -/
lemma write (h : m.LooksAlike m') (address : UInt32) (input : List UInt8) :
    (GuestMemory.write m address input).1 = (GuestMemory.write m' address input).1
      ∧ (GuestMemory.write m address input).2.LooksAlike
          (GuestMemory.write m' address input).2 := by
  rcases hwrite : GuestMemory.write m address input with ⟨_ | _, m₁⟩
  · obtain ⟨hvalid, rfl⟩ := write_eq_false hwrite
    rw [← h.validAccess] at hvalid
    have hwrite' : GuestMemory.write m' address input = (false, m') :=
      if_neg (Bool.eq_false_iff.mp hvalid)
    rw [hwrite']
    exact ⟨rfl, h⟩
  · obtain ⟨hvalid, rfl⟩ := write_eq_true hwrite
    rw [← h.validAccess] at hvalid
    have hwrite' : GuestMemory.write m' address input
        = (true, m'.withBytes (overwrite m'.reservation address.toNat input)) := if_pos hvalid
    rw [hwrite']
    refine ⟨rfl, h.pageSize, h.pageState, fun x hx => ?_⟩
    rw [withBytes_reservation, withBytes_reservation, overwrite, overwrite, h.bytes x hx]

/-- A call is answered alike, and leaves them alike. -/
lemma respond (h : m.LooksAlike m') (call : MemoryCall) :
    (call.respond m).1 = (call.respond m').1
      ∧ (call.respond m).2.LooksAlike (call.respond m').2 := by
  cases call with
  | read address length => exact ⟨h.read address length, h⟩
  | readCode address length => exact ⟨h.readCode address length, h⟩
  | write address input => exact h.write address input

end LooksAlike

end MappedGuestMemory

/-! ### The contiguous backend in its place -/

/-- The sparse memory has the range of the contiguous one as its only mapping, with all
permissions and the same bytes in it. -/
structure AgreeFully (linear : LinearGuestMemory) (mapped : MappedGuestMemory) : Prop where
  only : mapped.OnlyMapping linear.base linear.bytes.length (.read ||| .write ||| .execute)
  bytes : ∀ x, linear.base.toNat ≤ x → x < linear.base.toNat + linear.bytes.length →
    linear.byteAt x = mapped.reservation x

namespace AgreeFully

variable {linear : LinearGuestMemory} {mapped : MappedGuestMemory} {address : UInt32}
  {length : ℕ} {input : List UInt8} {required : MemoryPermission}

/-- A new contiguous memory and a sparse one with the same range, all zero. -/
lemma create {base : UInt32} {size : ℕ} (hend : base.toNat + size ≤ 2 ^ 32)
    (honly : mapped.OnlyMapping base size (.read ||| .write ||| .execute))
    (hzero : ∀ x, base.toNat ≤ x → x < base.toNat + size → mapped.reservation x = 0) :
    ∃ linear, LinearGuestMemory.create size base = some linear ∧ AgreeFully linear mapped := by
  obtain ⟨linear, hcreate, rfl, hbytes⟩ := LinearGuestMemory.create_of_fits hend
  have hlength : linear.bytes.length = size := by rw [hbytes, List.length_replicate]
  refine ⟨linear, hcreate, by rwa [hlength], fun x hx hlt => ?_⟩
  rw [hlength] at hlt
  rw [hzero x hx hlt, LinearGuestMemory.byteAt, if_pos hx, hbytes, List.getD_eq_getElem?_getD,
    List.getElem?_replicate]
  split
  · rfl
  · rfl

lemma validAccess_iff (h : AgreeFully linear mapped)
    (hrequired : hasPermission (.read ||| .write ||| .execute) required = true)
    (hlength : 0 < length) :
    mapped.validAccess address length required = true ↔ linear.Contains address length := by
  have hsize := linear.size_le
  have hbase := linear.base.toNat_lt
  exact h.only.validAccess_iff hrequired (by omega) hlength

/-- A read or a fetch is served alike. -/
lemma served (h : AgreeFully linear mapped)
    (hrequired : hasPermission (.read ||| .write ||| .execute) required = true)
    (hlength : 0 < length) :
    (if linear.Contains address length then some (window linear.byteAt address.toNat length)
      else none)
      = if mapped.validAccess address length required then
          some (window mapped.reservation address.toNat length)
        else none := by
  have hvalid : mapped.validAccess address length required = true
      ↔ linear.Contains address length := h.validAccess_iff hrequired hlength
  by_cases hin : linear.Contains address length
  · rw [if_pos hin, if_pos (hvalid.mpr hin)]
    obtain ⟨hbase, hend⟩ := hin
    exact congrArg some (window_congr fun x hx hlt => h.bytes x (by omega) (by omega))
  · rw [if_neg hin, if_neg fun hv => hin (hvalid.mp hv)]

/-- Writes have the same flag, and keep the agreement. -/
lemma write (h : AgreeFully linear mapped) (address : UInt32) (hlength : 0 < input.length) :
    (GuestMemory.write linear address input).1 = (GuestMemory.write mapped address input).1
      ∧ AgreeFully (GuestMemory.write linear address input).2
          (GuestMemory.write mapped address input).2 := by
  have hvalid : mapped.validAccess address input.length .write = true
      ↔ linear.Contains address input.length := h.validAccess_iff (by decide) hlength
  have hwrite : GuestMemory.write mapped address input
      = if mapped.validAccess address input.length .write = true then
          (true, mapped.withBytes (overwrite mapped.reservation address.toNat input))
        else (false, mapped) := rfl
  rw [LinearGuestMemory.write_eq, hwrite]
  by_cases hin : linear.Contains address input.length
  · rw [if_pos hin, if_pos (hvalid.mpr hin)]
    have hsize : (linear.copyAt (address.toNat - linear.base.toNat) input).bytes.length
        = linear.bytes.length := List.length_mapIdx
    refine ⟨rfl, ⟨?_, fun x hx hlt => ?_⟩⟩
    · rw [hsize]
      exact h.only.withBytes _
    · rw [hsize] at hlt
      rw [LinearGuestMemory.byteAt_copyAt hin, MappedGuestMemory.withBytes_reservation, overwrite,
        overwrite, h.bytes x hx hlt]
  · rw [if_neg hin, if_neg fun hv => hin (hvalid.mp hv)]
    exact ⟨rfl, h⟩

/-- A call with a span is answered alike, and keeps the agreement. -/
lemma respond (h : AgreeFully linear mapped) {call : MemoryCall} (hspan : 0 < call.length) :
    (call.respond linear).1 = (call.respond mapped).1
      ∧ AgreeFully (call.respond linear).2 (call.respond mapped).2 := by
  cases call with
  | read address length =>
      exact ⟨LinearGuestMemory.read_eq.trans (h.served (by decide) hspan), h⟩
  | readCode address length =>
      exact ⟨LinearGuestMemory.read_eq.trans (h.served (by decide) hspan), h⟩
  | write address input => exact h.write address hspan

end AgreeFully

end LibA32Android

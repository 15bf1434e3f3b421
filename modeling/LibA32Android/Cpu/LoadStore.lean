/-
Loads and stores of the guest (`MemoryRead8` to `MemoryWrite64` of `cpu/dynarmic_cpu.cpp`).

* `AccessWidth`: the four widths, with the callbacks of each;
* `toNat_decode`, `leValue_encode`: the callbacks read and write little-endian numbers;
* `load_runOn`, `store_runOn`: what they do on the sparse backend;
* `store_load`: a load of any width sees the part of the last store that it lies in, a load
  apart from the store sees none of it, and a refused store changes nothing.
-/
import LibA32Android.Cpu.Callbacks
import LibA32Android.Foundations.LittleEndian
import LibA32Android.Memory.HostPages

namespace LibA32Android

open Foundations Environment

/-! ### Widths -/

/-- The width of a data access. -/
inductive AccessWidth where
  | byte
  | half
  | word
  | double
  deriving DecidableEq, Repr

namespace AccessWidth

/-- The size of an access. -/
def size : AccessWidth → ℕ
  | .byte => 1
  | .half => 2
  | .word => 4
  | .double => 8

/-- The values of a width. -/
def Value : AccessWidth → Type
  | .byte => UInt8
  | .half => UInt16
  | .word => UInt32
  | .double => UInt64

/-- The zero of a width. -/
instance zero : (width : AccessWidth) → OfNat width.Value 0
  | .byte => inferInstanceAs (OfNat UInt8 0)
  | .half => inferInstanceAs (OfNat UInt16 0)
  | .word => inferInstanceAs (OfNat UInt32 0)
  | .double => inferInstanceAs (OfNat UInt64 0)

/-- A value as a number. -/
def toNat : (width : AccessWidth) → width.Value → ℕ
  | .byte => UInt8.toNat
  | .half => UInt16.toNat
  | .word => UInt32.toNat
  | .double => UInt64.toNat

/-- The value of the bytes that a load has read. -/
def decode : (width : AccessWidth) → List UInt8 → width.Value
  | .byte => fun bytes => bytes.getD 0 0
  | .half => (decodeU16Le · 0)
  | .word => (decodeU32Le · 0)
  | .double => decodeU64

/-- The bytes that a store writes. -/
def encode : (width : AccessWidth) → width.Value → List UInt8
  | .byte => fun value => [value]
  | .half => encodeU16
  | .word => encodeU32Le
  | .double => encodeU64

/-- The load callback of a width. -/
def load : (width : AccessWidth) → UInt32 → MemoryProgram (Noted width.Value)
  | .byte => memoryRead8
  | .half => memoryRead16
  | .word => memoryRead32
  | .double => memoryRead64

/-- The store callback of a width. -/
def store : (width : AccessWidth) → UInt32 → width.Value → MemoryProgram (Noted Unit)
  | .byte => memoryWrite8
  | .half => memoryWrite16
  | .word => memoryWrite32
  | .double => memoryWrite64

variable {width width' : AccessWidth} {value : width.Value}

lemma size_pos (width : AccessWidth) : 0 < width.size := by cases width <;> decide

lemma load_eq (width : AccessWidth) (vaddr : UInt32) :
    width.load vaddr = memoryRead width.size width.decode vaddr := by cases width <;> rfl

lemma store_eq (width : AccessWidth) (vaddr : UInt32) (value : width.Value) :
    width.store vaddr value = writeBytes vaddr (width.encode value) := by cases width <;> rfl

lemma length_encode (width : AccessWidth) (value : width.Value) :
    (width.encode value).length = width.size := by cases width <;> rfl

/-! ### Little-endian numbers -/

/-- A byte shifted inside a word stays below its bound. -/
lemma shiftLeft_lt (byte : UInt8) {shift bits : ℕ} (h : shift + 8 ≤ bits) :
    byte.toNat <<< shift < 2 ^ bits := by
  have hbyte := byte.toNat_lt
  rw [Nat.shiftLeft_eq]
  calc byte.toNat * 2 ^ shift < 2 ^ 8 * 2 ^ shift :=
        Nat.mul_lt_mul_of_pos_right hbyte (Nat.two_pow_pos _)
    _ = 2 ^ (shift + 8) := by rw [← pow_add, Nat.add_comm]
    _ ≤ 2 ^ bits := Nat.pow_le_pow_right (by decide) h

/-- The loop of `MemoryRead64` after some rounds. -/
lemma decodeU64_rounds (bytes : List UInt8) {n : ℕ} (hn : n ≤ 8) :
    ((List.range n).foldl (fun (value : UInt64) index =>
        value ||| (bytes.getD index 0).toUInt64 <<< UInt64.ofNat (index * 8)) 0).toNat
      = leValue ((List.range n).map fun index => bytes.getD index 0) := by
  induction n with
  | zero => rfl
  | succ n ih =>
      have hlow := leValue_lt ((List.range n).map fun index => bytes.getD index 0)
      rw [List.length_map, List.length_range] at hlow
      rw [List.range_succ, List.foldl_append, List.foldl_cons, List.foldl_nil, UInt64.toNat_or,
        ih (by omega), List.map_append, leValue_append, List.length_map, List.length_range,
        List.map_singleton, leValue_cons, leValue_nil]
      have hshift : (UInt64.ofNat (n * 8)).toNat % 64 = 8 * n := by
        rw [UInt64.toNat_ofNat', Nat.mod_eq_of_lt (by omega)]
        omega
      have hpow : 256 ^ n = 2 ^ (8 * n) := by rw [pow_mul]; rfl
      rw [UInt64.toNat_shiftLeft, hshift, UInt8.toNat_toUInt64,
        Nat.mod_eq_of_lt (shiftLeft_lt _ (by omega)), hpow, or_shiftLeft_eq_add (hpow ▸ hlow),
        Nat.mul_zero, Nat.add_zero]

/-- **The loads decode little-endian numbers.** -/
lemma toNat_decode (width : AccessWidth) {bytes : List UInt8} (h : bytes.length = width.size) :
    width.toNat (width.decode bytes) = leValue bytes := by
  cases width with
  | byte =>
      obtain ⟨a, rfl⟩ := List.length_eq_one_iff.mp h
      rw [leValue_cons, leValue_nil]
      rfl
  | half =>
      obtain ⟨a, b, rfl⟩ := List.length_eq_two.mp h
      have ha := a.toNat_lt
      have hb := b.toNat_lt
      have hhigh : (b.toUInt16 <<< 8).toNat = b.toNat <<< 8 := by
        rw [UInt16.toNat_shiftLeft, UInt8.toNat_toUInt16]
        exact Nat.mod_eq_of_lt (shiftLeft_lt b (by decide : 8 + 8 ≤ 16))
      change (a.toUInt16 ||| b.toUInt16 <<< 8).toNat = _
      rw [UInt16.toNat_or, UInt8.toNat_toUInt16, hhigh, or_shiftLeft_eq_add ha]
      simp only [leValue_cons, leValue_nil]
      omega
  | word =>
      obtain ⟨a, b, c, d, rfl⟩ := List.length_eq_four.mp h
      have ha := a.toNat_lt
      have hb := b.toNat_lt
      have hc := c.toNat_lt
      have hshift : ∀ (byte : UInt8) (shift : UInt32), shift.toNat + 8 ≤ 32 →
          (byte.toUInt32 <<< shift).toNat = byte.toNat <<< shift.toNat := by
        intro byte shift hle
        rw [UInt32.toNat_shiftLeft, UInt8.toNat_toUInt32,
          Nat.mod_eq_of_lt (show shift.toNat < 32 by omega),
          Nat.mod_eq_of_lt (shiftLeft_lt byte hle)]
      change (a.toUInt32 ||| b.toUInt32 <<< 8 ||| c.toUInt32 <<< 16 ||| d.toUInt32 <<< 24).toNat = _
      rw [UInt32.toNat_or, UInt32.toNat_or, UInt32.toNat_or, UInt8.toNat_toUInt32,
        hshift b 8 (by decide), hshift c 16 (by decide), hshift d 24 (by decide)]
      change a.toNat ||| b.toNat <<< 8 ||| c.toNat <<< 16 ||| d.toNat <<< 24 = _
      have hlow : a.toNat + 2 ^ 8 * b.toNat < 2 ^ 16 := by omega
      have hmiddle : a.toNat + 2 ^ 8 * b.toNat + 2 ^ 16 * c.toNat < 2 ^ 24 := by omega
      rw [or_shiftLeft_eq_add ha, or_shiftLeft_eq_add hlow, or_shiftLeft_eq_add hmiddle]
      simp only [leValue_cons, leValue_nil]
      omega
  | double =>
      have hbytes : (List.range 8).map (fun index => bytes.getD index 0) = bytes := by
        refine List.ext_getElem (by simpa [size] using h.symm) fun i hi hi' => ?_
        simp [hi']
      exact (decodeU64_rounds bytes le_rfl).trans (congrArg leValue hbytes)

/-- The bytes of a store are those of its number. -/
lemma encode_eq (width : AccessWidth) (value : width.Value) :
    width.encode value
      = (List.range width.size).map fun i => UInt8.ofNat (width.toNat value / 256 ^ i) := by
  cases width with
  | byte =>
      change UInt8 at value
      change [value] = [UInt8.ofNat (value.toNat / 1)]
      rw [Nat.div_one, UInt8.ofNat_toNat]
  | half =>
      change UInt16 at value
      change [value.toUInt8, (value >>> 8).toUInt8]
        = [UInt8.ofNat (value.toNat / 1), UInt8.ofNat (value.toNat / 2 ^ 8)]
      rw [Nat.div_one, ← Nat.shiftRight_eq_div_pow]
      rfl
  | word =>
      change UInt32 at value
      change encodeU32Le value
        = [UInt8.ofNat (value.toNat / 1), UInt8.ofNat (value.toNat / 2 ^ 8),
            UInt8.ofNat (value.toNat / 2 ^ 16), UInt8.ofNat (value.toNat / 2 ^ 24)]
      rw [Nat.div_one, ← Nat.shiftRight_eq_div_pow, ← Nat.shiftRight_eq_div_pow,
        ← Nat.shiftRight_eq_div_pow]
      rfl
  | double =>
      change UInt64 at value
      refine List.map_congr_left fun i hi => ?_
      have hlt : i < 8 := List.mem_range.mp hi
      have hshift : (UInt64.ofNat (i * 8)).toNat % 64 = 8 * i := by
        rw [UInt64.toNat_ofNat', Nat.mod_eq_of_lt (by omega)]
        omega
      rw [← UInt8.toNat_inj, UInt64.toNat_toUInt8, UInt64.toNat_shiftRight, hshift,
        Nat.shiftRight_eq_div_pow, UInt8.toNat_ofNat', pow_mul]
      rfl

/-- **The stores encode little-endian numbers.** -/
lemma leValue_encode (width : AccessWidth) (value : width.Value) :
    leValue (width.encode value) = width.toNat value := by
  rw [encode_eq, leValue_bytes]
  refine Nat.mod_eq_of_lt ?_
  cases width with
  | byte => exact UInt8.toNat_lt value
  | half => exact UInt16.toNat_lt value
  | word => exact UInt32.toNat_lt value
  | double => exact UInt64.toNat_lt value

/-! ### Accesses to the sparse backend -/

variable {m : MappedGuestMemory} {vaddr : UInt32}

lemma memoryRead_runOn {α : Type} [OfNat α 0] (size : ℕ) (decode : List UInt8 → α)
    (vaddr : UInt32) (m : MappedGuestMemory) :
    (memoryRead size decode vaddr).runOn m
      = (((GuestMemory.read m vaddr size).elim 0 decode,
          if (GuestMemory.read m vaddr size).isSome then [] else [.memoryFault]), m) := rfl

lemma writeBytes_runOn (vaddr : UInt32) (bytes : List UInt8) (m : MappedGuestMemory) :
    (writeBytes vaddr bytes).runOn m
      = (((), if (GuestMemory.write m vaddr bytes).1 then [] else [.memoryFault]),
          (GuestMemory.write m vaddr bytes).2) := rfl

/-- A load delivers the number of readable bytes; otherwise it notes a fault and delivers 0. -/
lemma load_runOn (width : AccessWidth) (vaddr : UInt32) (m : MappedGuestMemory) :
    (width.load vaddr).runOn m
      = if m.validAccess vaddr width.size .read then
          ((width.decode (window m.reservation vaddr.toNat width.size), []), m)
        else ((0, [.memoryFault]), m) := by
  have hread : GuestMemory.read m vaddr width.size
      = if m.validAccess vaddr width.size .read then
          some (window m.reservation vaddr.toNat width.size)
        else none := rfl
  rw [load_eq, memoryRead_runOn, hread]
  split
  · rfl
  · rfl

/-- A store writes the bytes of its number, or notes a fault and changes nothing. -/
lemma store_runOn (width : AccessWidth) (vaddr : UInt32) (value : width.Value)
    (m : MappedGuestMemory) :
    (width.store vaddr value).runOn m
      = if m.validAccess vaddr width.size .write then
          (((), []), m.withBytes (overwrite m.reservation vaddr.toNat (width.encode value)))
        else (((), [.memoryFault]), m) := by
  have hwrite : GuestMemory.write m vaddr (width.encode value)
      = if m.validAccess vaddr (width.encode value).length .write then
          (true, m.withBytes (overwrite m.reservation vaddr.toNat (width.encode value)))
        else (false, m) := rfl
  rw [length_encode] at hwrite
  rw [store_eq, writeBytes_runOn, hwrite]
  split
  · rfl
  · rfl

/-! ### Loads after stores -/

/-- The bytes of a store that lie under a load inside it. -/
lemma window_encode {offset : ℕ} (value : width.Value) (hinside : offset + width'.size ≤ width.size)
    (bytes : ℕ → UInt8) (start : ℕ) :
    window (overwrite bytes start (width.encode value)) (start + offset) width'.size
      = ((width.encode value).drop offset).take width'.size := by
  refine List.ext_getElem ?_ fun i hi hi' => ?_
  · rw [window_length, List.length_take, List.length_drop, length_encode]
    omega
  · rw [window_length] at hi
    have hlt : offset + i < (width.encode value).length := by
      rw [length_encode]
      omega
    simp only [window, List.getElem_map, List.getElem_range, List.getElem_take, List.getElem_drop]
    rw [Nat.add_assoc, overwrite_apply_add hlt]

/-- The bytes of a load inside a store are readable, since a page that can be written can be
read. -/
lemma validAccess_read_of_write (h : m.HostFollows) {vaddr' : UInt32} {offset : ℕ}
    (hinside : offset + width'.size ≤ width.size) (hstart : vaddr'.toNat = vaddr.toNat + offset)
    (hvalid : m.validAccess vaddr width.size .write = true) :
    m.validAccess vaddr' width'.size .read = true := by
  have hpos := width.size_pos
  rw [MappedGuestMemory.validAccess_iff] at hvalid ⊢
  rcases hvalid with hempty | ⟨hend, hall⟩
  · omega
  · exact .inr ⟨by omega, fun x hx hlt => h.read_of_write (hall x (by omega) (by omega))⟩

end AccessWidth

/-- **Loads see the stores before them.**  On a memory whose page states are those of page
operations, a store of any width is refused with a fault and changes nothing, or it succeeds;
then a load of any width inside the stored bytes succeeds and delivers that part of the
stored number, and a load apart from them is as it was before the store. -/
theorem store_load {m : MappedGuestMemory} (h : m.HostFollows) (width width' : AccessWidth)
    (vaddr : UInt32) (value : width.Value) :
    ((width.store vaddr value).runOn m = (((), [.memoryFault]), m))
      ∨ ∃ stored, (width.store vaddr value).runOn m = (((), []), stored)
        ∧ ∀ vaddr',
          (∀ offset, offset + width'.size ≤ width.size → vaddr'.toNat = vaddr.toNat + offset →
            ∃ loaded, (width'.load vaddr').runOn stored = ((loaded, []), stored)
              ∧ width'.toNat loaded = width.toNat value / 256 ^ offset % 256 ^ width'.size)
          ∧ (vaddr'.toNat + width'.size ≤ vaddr.toNat ∨ vaddr.toNat + width.size ≤ vaddr'.toNat →
            ((width'.load vaddr').runOn stored).1 = ((width'.load vaddr').runOn m).1) := by
  rw [width.store_runOn]
  by_cases hvalid : m.validAccess vaddr width.size .write = true
  · rw [if_pos hvalid]
    refine .inr ⟨_, rfl, fun vaddr' => ⟨fun offset hinside hstart => ?_, fun hapart => ?_⟩⟩
    · have hread : (m.withBytes
          (overwrite m.reservation vaddr.toNat (width.encode value))).validAccess
          vaddr' width'.size .read = true :=
        AccessWidth.validAccess_read_of_write h hinside hstart hvalid
      rw [width'.load_runOn, if_pos hread]
      refine ⟨_, rfl, ?_⟩
      rw [width'.toNat_decode (window_length ..), MappedGuestMemory.withBytes_reservation, hstart,
        AccessWidth.window_encode value hinside, leValue_slice, width.leValue_encode]
    · have hwindow : window (overwrite m.reservation vaddr.toNat (width.encode value))
          vaddr'.toNat width'.size = window m.reservation vaddr'.toNat width'.size := by
        refine window_congr fun x hx hlt => overwrite_of_outside ?_
        rw [AccessWidth.length_encode]
        omega
      have hsame : (m.withBytes
          (overwrite m.reservation vaddr.toNat (width.encode value))).validAccess
          vaddr' width'.size .read = m.validAccess vaddr' width'.size .read := rfl
      rw [width'.load_runOn, width'.load_runOn, hsame, MappedGuestMemory.withBytes_reservation,
        hwindow]
      split
      · rfl
      · rfl
  · rw [if_neg hvalid]
    exact .inl rfl

/-- The upper half of a stored word. -/
theorem store_load_half :
    let m := ((MappedGuestMemory.create 4096 (fun _ _ => true) MappedGuestMemory.fourKiB_dvd).map
      0x1000 0x1000 (.read ||| .write)).2
    ∃ stored loaded, (AccessWidth.store .word 0x1000 (0x11223344 : UInt32)).runOn m
        = (((), []), stored)
      ∧ (AccessWidth.load .half 0x1002).runOn stored = ((loaded, []), stored)
      ∧ AccessWidth.toNat .half loaded = 0x1122 := by
  intro m
  have hfollows : m.HostFollows := MappedGuestMemory.HostFollows.setPages
    (MappedGuestMemory.create_hostFollows ..) ..
  rcases store_load hfollows .word .half 0x1000 (0x11223344 : UInt32) with
    hrefused | ⟨stored, hstored, hloads⟩
  · have hnoted : ((AccessWidth.store .word 0x1000 (0x11223344 : UInt32)).runOn m).1.2 = [] := by
      decide +kernel
    rw [hrefused] at hnoted
    cases hnoted
  · obtain ⟨loaded, hloaded, hvalue⟩ := (hloads 0x1002).1 2 (by decide) (by decide)
    exact ⟨stored, loaded, hstored, hloaded, hvalue.trans (by decide +kernel)⟩

end LibA32Android

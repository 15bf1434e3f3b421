/-
Little-endian numbers.

* `leValue`: the number that bytes stand for, low byte first;
* `leValue_slice`: what part of the bytes stands for;
* `leValue_bytes`: the bytes of a number stand for it, up to their number;
* `or_shiftLeft_eq_add`: a byte put above a smaller number adds its multiple.
-/
import Mathlib

namespace Foundations

/-- The number with the given bytes, low byte first. -/
def leValue (bytes : List UInt8) : ℕ := Nat.ofDigits 256 (bytes.map UInt8.toNat)

lemma leValue_nil : leValue [] = 0 := rfl

lemma leValue_cons (byte : UInt8) (bytes : List UInt8) :
    leValue (byte :: bytes) = byte.toNat + 256 * leValue bytes := by
  rw [leValue, List.map_cons, Nat.ofDigits_cons, leValue]

lemma leValue_append (bytes bytes' : List UInt8) :
    leValue (bytes ++ bytes') = leValue bytes + 256 ^ bytes.length * leValue bytes' := by
  rw [leValue, List.map_append, Nat.ofDigits_append, List.length_map, leValue, leValue]

lemma toNat_lt_of_mem_map (bytes : List UInt8) :
    ∀ digit ∈ bytes.map UInt8.toNat, digit < 256 := by
  intro digit hdigit
  obtain ⟨byte, -, rfl⟩ := List.mem_map.mp hdigit
  exact byte.toNat_lt

lemma leValue_lt (bytes : List UInt8) : leValue bytes < 256 ^ bytes.length := by
  have h := Nat.ofDigits_lt_base_pow_length (by decide) (toNat_lt_of_mem_map bytes)
  rwa [List.length_map] at h

/-- A slice stands for the middle digits. -/
lemma leValue_slice (bytes : List UInt8) (offset length : ℕ) :
    leValue ((bytes.drop offset).take length) = leValue bytes / 256 ^ offset % 256 ^ length := by
  rw [leValue, leValue, List.map_take, List.map_drop,
    Nat.ofDigits_div_pow_eq_ofDigits_drop offset (by decide) _ (toNat_lt_of_mem_map bytes),
    Nat.ofDigits_mod_pow_eq_ofDigits_take length (by decide) _
      fun digit hdigit => toNat_lt_of_mem_map bytes digit (List.mem_of_mem_drop hdigit)]

/-- The low bytes of a number stand for it, up to a multiple of their power of 256. -/
lemma leValue_bytes (value count : ℕ) :
    leValue ((List.range count).map fun i => UInt8.ofNat (value / 256 ^ i))
      = value % 256 ^ count := by
  induction count with
  | zero => rw [pow_zero, Nat.mod_one]; rfl
  | succ count ih =>
      rw [List.range_succ, List.map_append, leValue_append, ih, List.length_map, List.length_range,
        List.map_singleton, leValue_cons, leValue_nil, UInt8.toNat_ofNat', Nat.mul_zero,
        Nat.add_zero, pow_succ (256 : ℕ) count, Nat.mod_mul]

/-- Bits above a smaller number add a multiple. -/
lemma or_shiftLeft_eq_add {low high shift : ℕ} (h : low < 2 ^ shift) :
    low ||| high <<< shift = low + 2 ^ shift * high := by
  rw [Nat.or_comm, ← Nat.shiftLeft_add_eq_or_of_lt h, Nat.shiftLeft_eq, Nat.add_comm, Nat.mul_comm]

end Foundations

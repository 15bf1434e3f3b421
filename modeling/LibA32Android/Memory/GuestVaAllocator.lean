/-
The guest address search (`memory/guest_va_allocator.h`,
`memory/guest_va_allocator.cpp`).

* `searchFreeRange`: the loop over the candidates of a window, in steps of the
  alignment, with the candidates it looks at;
* `findFreeGuestRange`: the first-fit search;
* `findFreeGuestRange_ok`: the range found lies in the window, at an address of
  the required residue, and all its pages are unmapped.
-/
import LibA32Android.Foundations.Checks
import LibA32Android.Memory.Mapped

namespace LibA32Android

open Foundations

/-- `GuestVaSearchOptions`. -/
structure GuestVaSearchOptions where
  begin : UInt32
  endExclusive : ℕ
  alignment : ℕ
  alignmentOffset : ℕ
  deriving DecidableEq, Repr

/-- `GuestVaSearchError`, without `None`. -/
inductive GuestVaSearchError where
  | invalidRange
  | invalidAlignment
  | sizeOverflow
  | noSpace
  deriving DecidableEq, Repr

namespace MappedGuestMemory

/-- No page from `candidate` on is mapped. -/
def rangeIsFree (memory : MappedGuestMemory) (candidate length : ℕ) : Bool :=
  !(pageSteps memory.pageSize candidate (candidate + length)).any fun page =>
    memory.isMapped (UInt32.ofNat page)

/-- The search loop from one candidate on, with the candidates whose pages it inspects.  It
advances by the alignment inside the window, and so it ends. -/
def searchFreeRange (memory : MappedGuestMemory) (length : ℕ) (options : GuestVaSearchOptions)
    (halignment : 0 < options.alignment) (candidate : ℕ) :
    List ℕ × Except GuestVaSearchError UInt32 :=
  if candidate < options.endExclusive then
    if candidate > 2 ^ 32 - length ∨ length > options.endExclusive - candidate then
      ([], .error .noSpace)
    else if memory.rangeIsFree candidate length then ([candidate], .ok (UInt32.ofNat candidate))
    else if options.alignment > 2 ^ 32 - candidate then ([candidate], .error .noSpace)
    else
      let rest := memory.searchFreeRange length options halignment (candidate + options.alignment)
      (candidate :: rest.1, rest.2)
  else ([], .error .noSpace)
termination_by options.endExclusive - candidate

/-- `find_free_guest_range`. -/
def findFreeGuestRange (memory : MappedGuestMemory) (length : ℕ)
    (options : GuestVaSearchOptions) : Except GuestVaSearchError UInt32 := do
  refuse (length = 0 ∨ length % memory.pageSize ≠ 0 ∨ options.endExclusive > 2 ^ 32
    ∨ options.begin.toNat ≥ options.endExclusive) .invalidRange
  refuse (length > 2 ^ 32) .sizeOverflow
  if halignment : options.alignment = 0 ∨ options.alignment > 2 ^ 32
      ∨ options.alignment % memory.pageSize ≠ 0 then .error .invalidAlignment
  else
    let alignmentOffset := options.alignmentOffset % options.alignment
    refuse (alignmentOffset % memory.pageSize ≠ 0) .invalidAlignment
    let beginRemainder := options.begin.toNat % options.alignment
    let delta :=
      if beginRemainder ≤ alignmentOffset then alignmentOffset - beginRemainder
      else options.alignment - (beginRemainder - alignmentOffset)
    refuse (delta > 2 ^ 32 - options.begin.toNat) .noSpace
    (memory.searchFreeRange length options (Nat.pos_of_ne_zero (not_or.mp halignment).1)
      (options.begin.toNat + delta)).2

/-! ### What the search finds -/

variable {m : MappedGuestMemory} {length : ℕ} {options : GuestVaSearchOptions}
  {address : UInt32}

/-- A range found by the loop: a candidate of the loop, inside the window and
free. -/
lemma searchFreeRange_ok {halignment : 0 < options.alignment} {candidate : ℕ}
    (hend : options.endExclusive ≤ 2 ^ 32)
    (h : (m.searchFreeRange length options halignment candidate).2 = .ok address) :
    ∃ k, address.toNat = candidate + k * options.alignment
      ∧ address.toNat + length ≤ options.endExclusive
      ∧ address.toNat < options.endExclusive
      ∧ m.rangeIsFree address.toNat length = true := by
  fun_induction searchFreeRange m length options halignment candidate with
  | case1 => cases h
  | case2 candidate hlt hfits hfree =>
      cases h
      have hcand : candidate < 2 ^ 32 := by omega
      have heq := UInt32.toNat_ofNat_of_lt' hcand
      rw [heq]
      exact ⟨0, by omega, by omega, hlt, hfree⟩
  | case3 => cases h
  | case4 candidate hlt hfits hfree hnext rest ih =>
      obtain ⟨k, hk, hrest⟩ := ih h
      refine ⟨k + 1, ?_, hrest⟩
      rw [hk, Nat.add_one_mul]
      omega
  | case5 => cases h

/-- The first candidate has the required residue. -/
lemma first_candidate_mod {start offset alignment : ℕ} (hpos : 0 < alignment) :
    (start + (if start % alignment ≤ offset % alignment then
        offset % alignment - start % alignment
      else alignment - (start % alignment - offset % alignment))) % alignment
      = offset % alignment := by
  have hs := Nat.mod_lt start hpos
  have ho := Nat.mod_lt offset hpos
  have hdm := Nat.div_add_mod start alignment
  split
  · rw [show start + (offset % alignment - start % alignment)
      = offset % alignment + alignment * (start / alignment) by omega, Nat.add_mul_mod_self_left,
      Nat.mod_mod]
  · rw [show start + (alignment - (start % alignment - offset % alignment))
      = offset % alignment + alignment * (start / alignment + 1) by
        rw [Nat.mul_add, Nat.mul_one]; omega, Nat.add_mul_mod_self_left, Nat.mod_mod]

/-- **The range found**: in the window, at the required residue, free. -/
theorem findFreeGuestRange_ok (h : m.findFreeGuestRange length options = .ok address) :
    options.begin.toNat ≤ address.toNat
      ∧ address.toNat % options.alignment = options.alignmentOffset % options.alignment
      ∧ address.toNat + length ≤ options.endExclusive
      ∧ m.IsPageRange address length
      ∧ ∀ page ∈ m.pages address length, ¬m.Mapped page := by
  simp only [findFreeGuestRange, refuse_bind_ok_iff, not_or, not_lt, not_not, ge_iff_le,
    not_le] at h
  obtain ⟨⟨hne, hlen, hend, hbegin⟩, -, h⟩ := h
  split at h
  · cases h
  rename_i haccepted
  simp only [refuse_bind_ok_iff, not_not, not_lt] at h
  obtain ⟨hoffset, -, hsearch⟩ := h
  obtain ⟨hpos, -, halign⟩ : options.alignment ≠ 0 ∧ options.alignment ≤ 2 ^ 32
      ∧ options.alignment % m.pageSize = 0 := by simpa using haccepted
  obtain ⟨k, hk, hwindow, hlt, hfree⟩ := searchFreeRange_ok hend hsearch
  have hmod : address.toNat % options.alignment
      = options.alignmentOffset % options.alignment := by
    rw [hk, Nat.add_mul_mod_self_right]
    exact first_candidate_mod (Nat.pos_of_ne_zero hpos)
  have hdvd : m.pageSize ∣ address.toNat := by
    rw [← Nat.div_add_mod address.toNat options.alignment, hmod]
    exact Nat.dvd_add ((Nat.dvd_of_mod_eq_zero halign).mul_right _)
      (Nat.dvd_of_mod_eq_zero hoffset)
  have hrange : m.IsPageRange address length :=
    ⟨Nat.pos_of_ne_zero hne, hdvd, Nat.dvd_of_mod_eq_zero hlen, by omega⟩
  refine ⟨by omega, hmod, hwindow, hrange, ?_⟩
  rw [← hrange.steps_unmapped_iff]
  simpa [rangeIsFree] using hfree

end MappedGuestMemory

end LibA32Android

/-
The address search is an exact first fit.

* `SearchAccepted`: the arguments that pass the checks of `find_free_guest_range`;
* `Fits`: the addresses the search is for;
* `firstCandidate`: the address the loop starts with;
* `searchFreeRange_exact`: from a candidate below which nothing fits, the loop finds
  the least address that fits;
* `first_fit`: the search returns the least address that fits, and `NoSpace` exactly
  when there is none.
-/
import LibA32Android.Memory.GuestVaAllocator

namespace LibA32Android

open Foundations

namespace MappedGuestMemory

/-- The arguments that pass the checks. -/
structure SearchAccepted (m : MappedGuestMemory) (length : ℕ) (options : GuestVaSearchOptions) :
    Prop where
  length_pos : 0 < length
  length_dvd : m.pageSize ∣ length
  length_le : length ≤ 2 ^ 32
  end_le : options.endExclusive ≤ 2 ^ 32
  begin_lt : options.begin.toNat < options.endExclusive
  alignment_pos : 0 < options.alignment
  alignment_le : options.alignment ≤ 2 ^ 32
  alignment_dvd : m.pageSize ∣ options.alignment
  offset_dvd : m.pageSize ∣ options.alignmentOffset % options.alignment

/-- The range at `a` lies in the window, at the required residue, and is unmapped. -/
structure Fits (m : MappedGuestMemory) (length : ℕ) (options : GuestVaSearchOptions) (a : ℕ) :
    Prop where
  begin_le : options.begin.toNat ≤ a
  residue : a % options.alignment = options.alignmentOffset % options.alignment
  end_le : a + length ≤ options.endExclusive
  unmapped : ∀ x, a ≤ x → x < a + length → ¬m.Mapped (x / m.pageSize)

/-- The candidate the loop starts with. -/
def firstCandidate (options : GuestVaSearchOptions) : ℕ :=
  options.begin.toNat
    + if options.begin.toNat % options.alignment ≤ options.alignmentOffset % options.alignment then
        options.alignmentOffset % options.alignment - options.begin.toNat % options.alignment
      else
        options.alignment - (options.begin.toNat % options.alignment
          - options.alignmentOffset % options.alignment)

variable {m : MappedGuestMemory} {length : ℕ} {options : GuestVaSearchOptions}

/-! ### Candidates -/

/-- Numbers of one residue are a step apart. -/
lemma eq_or_add_le_of_mod_eq {a b step : ℕ} (hle : a ≤ b) (hmod : b % step = a % step) :
    b = a ∨ a + step ≤ b := by
  obtain ⟨k, hk⟩ := (Nat.modEq_iff_dvd' hle).mp hmod.symm
  rcases Nat.eq_zero_or_pos k with rfl | hpos
  · left
    omega
  · right
    have := Nat.le_mul_of_pos_right step hpos
    omega

/-- The first candidate is less than a step behind the start of the window. -/
lemma firstCandidate_lt (hpos : 0 < options.alignment) :
    firstCandidate options < options.begin.toNat + options.alignment := by
  have hbegin := Nat.mod_lt options.begin.toNat hpos
  have hoffset := Nat.mod_lt options.alignmentOffset hpos
  rw [firstCandidate]
  split <;> omega

lemma begin_le_firstCandidate : options.begin.toNat ≤ firstCandidate options :=
  Nat.le_add_right _ _

/-- Nothing fits below the first candidate. -/
lemma Fits.firstCandidate_le {a : ℕ} (h : m.Fits length options a)
    (hpos : 0 < options.alignment) : firstCandidate options ≤ a := by
  by_contra hlt
  have hmod : firstCandidate options % options.alignment = a % options.alignment :=
    (first_candidate_mod hpos).trans h.residue.symm
  rcases eq_or_add_le_of_mod_eq (Nat.le_of_not_le hlt) hmod with heq | hstep
  · exact hlt heq.le
  · have hbegin := h.begin_le
    have hfirst := firstCandidate_lt hpos
    omega

/-- A candidate with the required residue is the start of a page. -/
lemma SearchAccepted.candidate_dvd (h : m.SearchAccepted length options) {a : ℕ}
    (hmod : a % options.alignment = options.alignmentOffset % options.alignment) :
    m.pageSize ∣ a := by
  rw [← Nat.div_add_mod a options.alignment, hmod]
  exact Nat.dvd_add (h.alignment_dvd.mul_right _) h.offset_dvd

/-- The page loop decides whether a range is free. -/
lemma SearchAccepted.rangeIsFree_iff (h : m.SearchAccepted length options) {a : ℕ}
    (hdvd : m.pageSize ∣ a) (hend : a + length ≤ 2 ^ 32) :
    m.rangeIsFree a length = true
      ↔ ∀ x, a ≤ x → x < a + length → ¬m.Mapped (x / m.pageSize) := by
  have hpos := h.length_pos
  have ha : (UInt32.ofNat a).toNat = a := UInt32.toNat_ofNat_of_lt' (by rw [UInt32.size]; omega)
  have hrange : m.IsPageRange (UInt32.ofNat a) length :=
    ⟨h.length_pos, by rwa [ha], h.length_dvd, by rwa [ha]⟩
  have hsteps := hrange.steps_unmapped_iff
  rw [ha] at hsteps
  rw [rangeIsFree, Bool.not_eq_true', hsteps]
  constructor
  · intro hfree x hle hlt
    exact hfree _ (hrange.mem_pages_iff.mpr (by rw [ha]; exact ⟨hle, hlt⟩))
  · intro hfree page hpage
    have hx := Nat.mul_div_cancel page m.pageSize_pos
    rw [← hx, hrange.mem_pages_iff, ha] at hpage
    exact hx ▸ hfree _ hpage.1 hpage.2

/-- Where every address that fits is at least one that would reach behind the window, none
does. -/
lemma not_fits_of_le {candidate : ℕ} (hbelow : ∀ a, m.Fits length options a → candidate ≤ a)
    (hend : options.endExclusive < candidate + length) (a : ℕ) : ¬m.Fits length options a := by
  intro hfits
  have hge := hbelow a hfits
  have hfit := hfits.end_le
  omega

/-- What fits is a step behind a candidate that is not free. -/
lemma SearchAccepted.next_le (h : m.SearchAccepted length options) {candidate : ℕ}
    (hmod : candidate % options.alignment = options.alignmentOffset % options.alignment)
    (hbelow : ∀ a, m.Fits length options a → candidate ≤ a) (hend : candidate + length ≤ 2 ^ 32)
    (hcandidate : ¬m.rangeIsFree candidate length = true) (a : ℕ)
    (hfits : m.Fits length options a) : candidate + options.alignment ≤ a := by
  rcases eq_or_add_le_of_mod_eq (hbelow a hfits) (hfits.residue.trans hmod.symm) with rfl | hstep
  · exact absurd ((h.rangeIsFree_iff (h.candidate_dvd hmod) hend).mpr hfits.unmapped) hcandidate
  · exact hstep

/-! ### The loop -/

/-- **The loop is exact**: from a candidate below which nothing fits, it returns the least
address that fits, or nothing fits. -/
lemma searchFreeRange_exact (h : m.SearchAccepted length options) {candidate : ℕ}
    (hbegin : options.begin.toNat ≤ candidate)
    (hmod : candidate % options.alignment = options.alignmentOffset % options.alignment)
    (hbelow : ∀ a, m.Fits length options a → candidate ≤ a) :
    (∃ address, (m.searchFreeRange length options h.alignment_pos candidate).2 = .ok address
        ∧ IsLeast {a | m.Fits length options a} address.toNat)
      ∨ ((m.searchFreeRange length options h.alignment_pos candidate).2 = .error .noSpace
        ∧ ∀ a, ¬m.Fits length options a) := by
  have hpos := h.length_pos
  have hend := h.end_le
  have hlength := h.length_le
  fun_induction searchFreeRange m length options h.alignment_pos candidate with
  | case1 candidate hwindow hlarge =>
      exact Or.inr ⟨rfl, not_fits_of_le hbelow (by omega)⟩
  | case2 candidate hwindow hlarge hcandidate =>
      have hfree := h.rangeIsFree_iff (h.candidate_dvd hmod) (by omega)
      have ha : (UInt32.ofNat candidate).toNat = candidate :=
        UInt32.toNat_ofNat_of_lt' (by rw [UInt32.size]; omega)
      refine Or.inl ⟨UInt32.ofNat candidate, rfl, ?_⟩
      rw [ha]
      exact ⟨⟨hbegin, hmod, by omega, hfree.mp hcandidate⟩, hbelow⟩
  | case3 candidate hwindow hlarge hcandidate hlast =>
      exact Or.inr ⟨rfl, not_fits_of_le (h.next_le hmod hbelow (by omega) hcandidate) (by omega)⟩
  | case4 candidate hwindow hlarge hcandidate hlast rest ih =>
      exact ih (by omega) (by rw [Nat.add_mod_right, hmod])
        (h.next_le hmod hbelow (by omega) hcandidate)
  | case5 candidate hwindow =>
      exact Or.inr ⟨rfl, not_fits_of_le hbelow (by omega)⟩

/-- The loop inspects a candidate for each step that it can make in the address space. -/
lemma searchFreeRange_length_le (hpos : 0 < options.alignment) (candidate : ℕ) :
    (m.searchFreeRange length options hpos candidate).1.length
      ≤ (2 ^ 32 - candidate) / options.alignment + 1 := by
  fun_induction searchFreeRange m length options hpos candidate with
  | case1 => exact Nat.zero_le _
  | case2 => exact Nat.le_add_left _ _
  | case3 => exact Nat.le_add_left _ _
  | case4 candidate hwindow hlarge hcandidate hlast rest ih =>
      have hstep : (2 ^ 32 - candidate) / options.alignment
          = (2 ^ 32 - (candidate + options.alignment)) / options.alignment + 1 := by
        rw [Nat.div_eq, if_pos ⟨hpos, by omega⟩, Nat.sub_sub]
      rw [List.length_cons, hstep]
      exact Nat.succ_le_succ ih
  | case5 => exact Nat.zero_le _

/-- A candidate that is inspected ends inside the address space. -/
lemma end_le_of_mem_searchFreeRange {hpos : 0 < options.alignment} {candidate a : ℕ}
    (hlength : length ≤ 2 ^ 32)
    (ha : a ∈ (m.searchFreeRange length options hpos candidate).1) : a + length ≤ 2 ^ 32 := by
  fun_induction searchFreeRange m length options hpos candidate with
  | case1 => exact absurd ha List.not_mem_nil
  | case2 candidate hwindow hlarge =>
      rw [List.mem_singleton.mp ha]
      omega
  | case3 candidate hwindow hlarge =>
      rw [List.mem_singleton.mp ha]
      omega
  | case4 candidate hwindow hlarge hcandidate hlast rest ih =>
      rcases List.mem_cons.mp ha with rfl | ha
      · omega
      · exact ih ha
  | case5 => exact absurd ha List.not_mem_nil

/-! ### The search -/

/-- With accepted arguments the search is its loop, unless the first candidate is already
behind the address space. -/
lemma SearchAccepted.findFreeGuestRange_eq (h : m.SearchAccepted length options) :
    m.findFreeGuestRange length options
      = if 2 ^ 32 < firstCandidate options then .error .noSpace
        else (m.searchFreeRange length options h.alignment_pos (firstCandidate options)).2 := by
  have hbegin := options.begin.toNat_lt
  have hpos := h.length_pos
  have hend := h.end_le
  have hlt := h.begin_lt
  have hlength := h.length_le
  have halignment := h.alignment_pos
  have hle := h.alignment_le
  have h1 := Nat.mod_eq_zero_of_dvd h.length_dvd
  have h2 := Nat.mod_eq_zero_of_dvd h.alignment_dvd
  have h3 := Nat.mod_eq_zero_of_dvd h.offset_dvd
  rw [findFreeGuestRange, refuse_neg (by omega), refuse_neg (by omega), dif_neg (by omega)]
  dsimp only
  rw [refuse_neg (not_not.mpr h3)]
  by_cases hfirst : 2 ^ 32 < firstCandidate options
  · rw [if_pos hfirst, refuse_pos]
    · rfl
    · rw [firstCandidate] at hfirst
      omega
  · rw [if_neg hfirst, refuse_neg]
    · rfl
    · rw [firstCandidate] at hfirst
      omega

/-- The search returns the least address that fits, or nothing fits. -/
lemma SearchAccepted.findFreeGuestRange_exact (h : m.SearchAccepted length options) :
    (∃ address, m.findFreeGuestRange length options = .ok address
        ∧ IsLeast {a | m.Fits length options a} address.toNat)
      ∨ (m.findFreeGuestRange length options = .error .noSpace
        ∧ ∀ a, ¬m.Fits length options a) := by
  have hbelow (a : ℕ) (hfits : m.Fits length options a) : firstCandidate options ≤ a :=
    hfits.firstCandidate_le h.alignment_pos
  rw [h.findFreeGuestRange_eq]
  by_cases hfirst : 2 ^ 32 < firstCandidate options
  · rw [if_pos hfirst]
    refine Or.inr ⟨rfl, fun a hfits => ?_⟩
    have hge := hbelow a hfits
    have hfit := hfits.end_le
    have hend := h.end_le
    omega
  · rw [if_neg hfirst]
    exact searchFreeRange_exact h begin_le_firstCandidate (first_candidate_mod h.alignment_pos)
      hbelow

/-- **First-fit search is exact.**  The search returns the least address that fits, and
`NoSpace` exactly when none does.  Its loop, which ends by definition, looks at one candidate
for each step of the address space at most, and the candidates and pages it truncates to 32
bits lose none. -/
theorem first_fit (m : MappedGuestMemory) (length : ℕ) (options : GuestVaSearchOptions)
    (h : m.SearchAccepted length options) :
    (∀ address, m.findFreeGuestRange length options = .ok address
        ↔ IsLeast {a | m.Fits length options a} address.toNat)
      ∧ (m.findFreeGuestRange length options = .error .noSpace
        ↔ ¬∃ a, m.Fits length options a)
      ∧ let examined := (m.searchFreeRange length options h.alignment_pos
          (firstCandidate options)).1
        examined.length ≤ 2 ^ 32 / options.alignment + 1
          ∧ ∀ candidate ∈ examined, (UInt32.ofNat candidate).toNat = candidate
            ∧ ∀ page ∈ pageSteps m.pageSize candidate (candidate + length),
                (UInt32.ofNat page).toNat = page := by
  have hpos := h.length_pos
  refine ⟨fun address => ?_, ?_, ?_, fun candidate hcandidate => ?_⟩
  · rcases h.findFreeGuestRange_exact with ⟨found, hfound, hleast⟩ | ⟨hnone, hempty⟩
    · rw [hfound]
      constructor
      · rintro ⟨⟩
        exact hleast
      · intro hleast'
        rw [UInt32.toNat_inj.mp (hleast.unique hleast')]
    · rw [hnone]
      exact iff_of_false nofun fun hleast => hempty _ hleast.1
  · rcases h.findFreeGuestRange_exact with ⟨found, hfound, hleast⟩ | ⟨hnone, hempty⟩
    · rw [hfound]
      exact iff_of_false nofun fun hempty => hempty ⟨_, hleast.1⟩
    · exact iff_of_true hnone fun hexists => hexists.elim hempty
  · refine (searchFreeRange_length_le h.alignment_pos _).trans (Nat.succ_le_succ ?_)
    exact Nat.div_le_div_right (Nat.sub_le _ _)
  · have hend := end_le_of_mem_searchFreeRange h.length_le hcandidate
    refine ⟨UInt32.toNat_ofNat_of_lt' (by rw [UInt32.size]; omega), fun page hpage => ?_⟩
    obtain ⟨-, -, hlt⟩ := (mem_pageSteps m.pageSize_pos).mp hpage
    exact UInt32.toNat_ofNat_of_lt' (by rw [UInt32.size]; omega)

/-- An alignment of three pages, with the first candidate taken. -/
theorem first_fit_second :
    let m := ((create 4096 (fun _ _ => true) fourKiB_dvd).map 0x4000 4096 .read).2
    let options : GuestVaSearchOptions := ⟨0x2000, 2 ^ 32, 0x3000, 0x1000⟩
    m.findFreeGuestRange 0x2000 options = .ok 0x7000
      ∧ IsLeast {a | m.Fits 0x2000 options a} 0x7000 := by
  intro m options
  have hfound : m.findFreeGuestRange 0x2000 options = .ok 0x7000 := by decide +kernel
  have haccepted : m.SearchAccepted 0x2000 options := by
    constructor <;> decide +kernel
  exact ⟨hfound, ((first_fit m 0x2000 options haccepted).1 0x7000).mp hfound⟩

end MappedGuestMemory

end LibA32Android

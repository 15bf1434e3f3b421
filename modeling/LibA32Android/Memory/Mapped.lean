/-
What the operations of the sparse backend do to pages and bytes.

Every result about the loader is put together from the lemmas here, and none of
them unfolds `map`, `protect`, `unmap`, `read` or `write` again.

* `UnchangedOff P`: the state and the bytes of every page outside `P` are the
  same in two memories;
* `map_ok`, `protect_ok`, `unmap_ok`, `write_eq_true`: what a successful
  operation found and what it leaves;
* `map_failed`, `protect_failed`, `unmap_failed`, `write_eq_false`: what a failing one
  leaves;
* `map_succeeds`, `protect_succeeds`, `unmap_succeeds`: when they succeed;
* the backend is a lawful guest memory.
-/
import LibA32Android.Memory.GuestMemory

namespace LibA32Android

open Foundations

namespace MappedGuestMemory

variable {m m' m'' : MappedGuestMemory} {address : UInt32} {length : ℕ}
  {permissions : MemoryPermission}

lemma pageSize_pos (m : MappedGuestMemory) : 0 < m.pageSize :=
  Nat.pos_of_dvd_of_pos m.pageSize_dvd (by norm_num)

/-! ### Pages -/

/-- A page is mapped. -/
def Mapped (m : MappedGuestMemory) (page : ℕ) : Prop := pageIsMapped (m.pageState page) = true

instance (m : MappedGuestMemory) (page : ℕ) : Decidable (m.Mapped page) :=
  inferInstanceAs (Decidable (_ = true))

/-- The pages of the range of `length` bytes from `address` on. -/
def pages (m : MappedGuestMemory) (address : UInt32) (length : ℕ) : Set ℕ :=
  {page | m.pageIndex address ≤ page ∧ page < m.pageIndex address + length / m.pageSize}

lemma mem_pages {page : ℕ} : page ∈ m.pages address length
    ↔ m.pageIndex address ≤ page ∧ page < m.pageIndex address + length / m.pageSize := Iff.rfl

/-- A page-aligned, non-empty range inside the address space. -/
structure IsPageRange (m : MappedGuestMemory) (address : UInt32) (length : ℕ) : Prop where
  pos : 0 < length
  address_dvd : m.pageSize ∣ address.toNat
  length_dvd : m.pageSize ∣ length
  end_le : address.toNat + length ≤ 2 ^ 32

lemma IsPageRange.valid (h : m.IsPageRange address length) :
    m.validPageRange address length = true := by
  have hpos := m.pageSize_pos
  have hend := h.end_le
  rw [validPageRange, if_neg]
  · simp only [decide_eq_true_eq]
    omega
  · rintro (h0 | h0 | h0 | h0)
    · exact absurd h.pos (by omega)
    · omega
    · exact h0 (Nat.mod_eq_zero_of_dvd h.address_dvd)
    · exact h0 (Nat.mod_eq_zero_of_dvd h.length_dvd)

/-- Below the wrap of the 64-bit sum the check is the mathematical one. -/
lemma isPageRange_of_valid (h : m.validPageRange address length = true)
    (hlen : address.toNat + length < 2 ^ 64) : m.IsPageRange address length := by
  rw [validPageRange] at h
  split at h
  · exact absurd h (by simp)
  · rename_i hc
    simp only [not_or, not_not] at hc
    simp only [decide_eq_true_eq, Nat.mod_eq_of_lt hlen] at h
    exact ⟨Nat.pos_of_ne_zero hc.1, Nat.dvd_of_mod_eq_zero hc.2.2.1,
      Nat.dvd_of_mod_eq_zero hc.2.2.2, h⟩

/-- The page of a byte of a page range is a page of the range. -/
lemma IsPageRange.mem_pages_iff (h : m.IsPageRange address length) {x : ℕ} :
    x / m.pageSize ∈ m.pages address length ↔ address.toNat ≤ x ∧ x < address.toNat + length := by
  obtain ⟨a, ha⟩ := h.address_dvd
  obtain ⟨n, hn⟩ := h.length_dvd
  have hpos := m.pageSize_pos
  have h1 : m.pageIndex address = a := by
    rw [pageIndex, ha, Nat.mul_div_cancel_left a hpos]
  have h2 : length / m.pageSize = n := by rw [hn, Nat.mul_div_cancel_left n hpos]
  rw [mem_pages]
  simp only [h1, h2, Nat.le_div_iff_mul_le hpos,
    Nat.div_lt_iff_lt_mul hpos]
  rw [ha, hn, ← Nat.mul_add, Nat.mul_comm a, Nat.mul_comm (a + n)]

/-- The pages of a page range lie inside the address space. -/
lemma IsPageRange.page_lt (h : m.IsPageRange address length) {page : ℕ}
    (hp : page ∈ m.pages address length) : (page + 1) * m.pageSize ≤ 2 ^ 32 := by
  have hmem : page * m.pageSize / m.pageSize ∈ m.pages address length := by
    rwa [Nat.mul_div_cancel page m.pageSize_pos]
  have h1 := (h.mem_pages_iff.mp hmem).2
  have h2 := h.end_le
  obtain ⟨c, hc⟩ : m.pageSize ∣ address.toNat + length :=
    Nat.dvd_add h.address_dvd h.length_dvd
  rw [hc, Nat.mul_comm page] at h1
  have h3 : page < c := Nat.lt_of_mul_lt_mul_left h1
  calc (page + 1) * m.pageSize = m.pageSize * (page + 1) := Nat.mul_comm _ _
    _ ≤ m.pageSize * c := Nat.mul_le_mul_left _ h3
    _ ≤ 2 ^ 32 := by omega

/-! ### Frames -/

/-- Outside the pages `P` two memories have the same page states and bytes; the
page size and the host are the same throughout. -/
structure UnchangedOff (P : Set ℕ) (m m' : MappedGuestMemory) : Prop where
  pageSize : m'.pageSize = m.pageSize
  host : m'.host = m.host
  pageState : ∀ page ∉ P, m'.pageState page = m.pageState page
  bytes : ∀ x, x / m.pageSize ∉ P → m'.reservation x = m.reservation x

namespace UnchangedOff

variable {P P' : Set ℕ}

lemma refl (P : Set ℕ) (m : MappedGuestMemory) : UnchangedOff P m m :=
  ⟨rfl, rfl, fun _ _ => rfl, fun _ _ => rfl⟩

lemma mono (h : UnchangedOff P m m') (hP : P ⊆ P') : UnchangedOff P' m m' :=
  ⟨h.pageSize, h.host, fun p hp => h.pageState p fun hp' => hp (hP hp'),
    fun x hx => h.bytes x fun hx' => hx (hP hx')⟩

lemma trans (h : UnchangedOff P m m') (h' : UnchangedOff P m' m'') : UnchangedOff P m m'' :=
  ⟨h'.pageSize.trans h.pageSize, h'.host.trans h.host,
    fun p hp => (h'.pageState p hp).trans (h.pageState p hp),
    fun x hx => (h'.bytes x (by rwa [h.pageSize])).trans (h.bytes x hx)⟩

lemma mapped_iff (h : UnchangedOff P m m') {page : ℕ} (hp : page ∉ P) :
    m'.Mapped page ↔ m.Mapped page := by
  rw [Mapped, Mapped, h.pageState page hp]

lemma pageIndex (h : UnchangedOff P m m') (address : UInt32) :
    m'.pageIndex address = m.pageIndex address := by
  rw [MappedGuestMemory.pageIndex, MappedGuestMemory.pageIndex, h.pageSize]

lemma pages (h : UnchangedOff P m m') (address : UInt32) (length : ℕ) :
    m'.pages address length = m.pages address length := by
  rw [MappedGuestMemory.pages, MappedGuestMemory.pages, h.pageIndex, h.pageSize]

lemma isPageRange (h : UnchangedOff P m m') (hr : m.IsPageRange address length) :
    m'.IsPageRange address length :=
  ⟨hr.pos, h.pageSize ▸ hr.address_dvd, h.pageSize ▸ hr.length_dvd, hr.end_le⟩

end UnchangedOff

/-! ### Page state bytes -/

lemma pageIsMapped_encode (permissions : MemoryPermission) :
    pageIsMapped (encodePageState permissions) = true := by
  obtain ⟨⟨bits⟩⟩ := permissions
  revert bits
  decide +kernel

lemma decodePermissions_encode (h : validPermissions permissions = true) :
    decodePermissions (encodePageState permissions) = permissions := by
  obtain ⟨⟨bits⟩⟩ := permissions
  revert bits
  decide +kernel

@[simp] lemma pageIsMapped_zero : pageIsMapped 0 = false := rfl

/-! ### The page loops -/

lemma any_range_eq_false {p : ℕ → Bool} {first count : ℕ} :
    ((List.range count).any fun index => p (first + index)) = false
      ↔ ∀ page, first ≤ page → page < first + count → p page = false := by
  simp only [List.any_eq_false, List.mem_range, Bool.not_eq_true]
  constructor
  · intro h page h1 h2
    have h3 := h (page - first) (by omega)
    rwa [show first + (page - first) = page by omega] at h3
  · intro h index hi
    exact h (first + index) (by omega) (by omega)

lemma all_range_eq_true {p : ℕ → Bool} {first count : ℕ} :
    ((List.range count).all fun index => p (first + index)) = true
      ↔ ∀ page, first ≤ page → page < first + count → p page = true := by
  simp only [List.all_eq_true, List.mem_range]
  constructor
  · intro h page h1 h2
    have h3 := h (page - first) (by omega)
    rwa [show first + (page - first) = page by omega] at h3
  · intro h index hi
    exact h (first + index) (by omega) (by omega)

/-- The addresses a page loop visits. -/
lemma mem_pageSteps {pageSize start stop x : ℕ} (hpos : 0 < pageSize) :
    x ∈ pageSteps pageSize start stop ↔ ∃ i, x = start + i * pageSize ∧ x < stop := by
  simp only [pageSteps, List.mem_map, List.mem_range, Nat.lt_iff_add_one_le,
    Nat.le_div_iff_mul_le hpos, Nat.add_one_mul]
  constructor
  · rintro ⟨i, hi, rfl⟩
    exact ⟨i, rfl, by omega⟩
  · rintro ⟨i, rfl, hi⟩
    exact ⟨i, by omega, rfl⟩

/-- A page loop that meets no mapped page found the whole range unmapped. -/
lemma IsPageRange.steps_unmapped_iff (h : m.IsPageRange address length) :
    ((pageSteps m.pageSize address.toNat (address.toNat + length)).any fun page =>
        m.isMapped (UInt32.ofNat page)) = false
      ↔ ∀ page ∈ m.pages address length, ¬m.Mapped page := by
  have hpos := m.pageSize_pos
  have hend := h.end_le
  obtain ⟨first, hfirst⟩ := h.address_dvd
  -- the `i`-th address of the loop is the start of the page `first + i`
  have hstep : ∀ i, address.toNat + i * m.pageSize = (first + i) * m.pageSize := by
    intro i
    rw [hfirst, Nat.add_mul, Nat.mul_comm first]
  have hmapped : ∀ page, page * m.pageSize < 2 ^ 32 →
      (m.isMapped (UInt32.ofNat (page * m.pageSize)) = true ↔ m.Mapped page) := by
    intro page hlt
    rw [isMapped, pageIndex, UInt32.toNat_ofNat_of_lt' hlt, Nat.mul_div_cancel page hpos]
    exact Iff.rfl
  simp only [List.any_eq_false]
  constructor
  · intro hfree page hp hm
    have hp' : page * m.pageSize / m.pageSize ∈ m.pages address length := by
      rwa [Nat.mul_div_cancel page hpos]
    obtain ⟨hge, hlt⟩ := h.mem_pages_iff.mp hp'
    have hle : first ≤ page := by
      rw [hfirst, Nat.mul_comm] at hge
      exact Nat.le_of_mul_le_mul_right hge hpos
    refine hfree (page * m.pageSize) ((mem_pageSteps hpos).mpr ⟨page - first, ?_, hlt⟩)
      ((hmapped page (by omega)).mpr hm)
    rw [hstep, Nat.add_sub_cancel' hle]
  · intro hfree x hx hm
    obtain ⟨i, rfl, hlt⟩ := (mem_pageSteps hpos).mp hx
    rw [hstep] at hlt hm
    refine hfree (first + i) ?_ ((hmapped (first + i) (by omega)).mp hm)
    rw [← Nat.mul_div_cancel (first + i) hpos, h.mem_pages_iff, ← hstep]
    exact ⟨by omega, by rwa [hstep]⟩

/-! ### Host calls -/

/-- A host call that fails has no effect. -/
lemma mprotect_failed {call : HostCall} {protection : HostProtection}
    (h : m.mprotect call address length protection = (false, m')) :
    m' = { m with hostCalls := m.hostCalls + 1 } := by
  rw [mprotect] at h
  split at h
  · simp at h
  · simpa using h.symm

/-- Changing host pages leaves the page states and the bytes alone. -/
lemma mprotect_ok {call : HostCall} {protection : HostProtection}
    (h : m.mprotect call address length protection = (true, m')) :
    m'.pageSize = m.pageSize ∧ m'.host = m.host ∧ m'.pageState = m.pageState
      ∧ m'.reservation = m.reservation := by
  rw [mprotect] at h
  split at h
  · simp only [Prod.mk.injEq, true_and] at h
    subst h
    exact ⟨rfl, rfl, rfl, rfl⟩
  · simp at h

lemma madviseDontneed_failed (h : m.madviseDontneed address length = (false, m')) :
    m' = { m with hostCalls := m.hostCalls + 1 } := by
  rw [madviseDontneed] at h
  split at h
  · simp at h
  · simpa using h.symm

lemma madviseDontneed_ok (h : m.madviseDontneed address length = (true, m')) :
    m' = { m with
      hostCalls := m.hostCalls + 1
      reservation := fill m.reservation address.toNat length 0 } := by
  rw [madviseDontneed] at h
  split at h
  · simpa using h.symm
  · simp at h

/-! ### Mapping and protecting -/

section SetPages

variable {call : HostCall} {wrong : UInt8 → Bool}

/-- What a successful change of pages found and leaves. -/
lemma setPages_ok (h : m.setPages call wrong address length permissions = (true, m')) :
    m.validPageRange address length = true ∧ validPermissions permissions = true
      ∧ (∀ page ∈ m.pages address length, wrong (m.pageState page) = false)
      ∧ UnchangedOff (m.pages address length) m m'
      ∧ (∀ page ∈ m.pages address length, m'.pageState page = encodePageState permissions)
      ∧ m'.reservation = m.reservation := by
  rw [setPages] at h
  split at h
  · simp at h
  rename_i hv
  simp only [Bool.or_eq_true, Bool.not_eq_true', not_or, Bool.not_eq_false] at hv
  split at h
  · simp at h
  rename_i hwrong
  rw [Bool.not_eq_true, any_range_eq_false (p := fun page => wrong (m.pageState page))] at hwrong
  split at h
  · simp at h
  rename_i m₁ hprot
  obtain ⟨hsize, hhost, hstate, hbytes⟩ := mprotect_ok hprot
  simp only [Prod.mk.injEq, true_and] at h
  subst h
  refine ⟨hv.1, hv.2, fun page hp => hwrong page hp.1 hp.2,
    ⟨hsize, hhost, fun page hp => ?_, fun x _ => congrFun hbytes x⟩, fun page hp => ?_, hbytes⟩
  · rw [mem_pages] at hp
    show fill m₁.pageState _ _ _ page = _
    rw [fill_of_outside (by omega), hstate]
  · exact fill_of_mem hp.1 hp.2

/-- A failing change of pages changes nothing but the number of host calls. -/
lemma setPages_failed (h : m.setPages call wrong address length permissions = (false, m')) :
    UnchangedOff ∅ m m' := by
  rw [setPages] at h
  split at h
  · cases h
    exact .refl _ _
  split at h
  · cases h
    exact .refl _ _
  split at h
  · rename_i m₁ hprot
    cases h
    rw [mprotect_failed hprot]
    exact ⟨rfl, rfl, fun _ _ => rfl, fun _ _ => rfl⟩
  · simp at h

lemma setPages_succeeds (hr : m.IsPageRange address length)
    (hperm : validPermissions permissions = true)
    (hright : ∀ page ∈ m.pages address length, wrong (m.pageState page) = false)
    (hhost : ∀ n, m.host n call = true) :
    ∃ m', m.setPages call wrong address length permissions = (true, m') := by
  have hany : ((List.range (length / m.pageSize)).any fun index =>
      wrong (m.pageState (m.pageIndex address + index))) = false := by
    rw [any_range_eq_false (p := fun page => wrong (m.pageState page))]
    exact fun page h1 h2 => hright page ⟨h1, h2⟩
  simp [setPages, mprotect, hr.valid, hperm, hany, hhost]

end SetPages

/-- A successful `map` found its pages unmapped. -/
lemma map_ok (h : m.map address length permissions = (true, m')) :
    m.validPageRange address length = true ∧ validPermissions permissions = true
      ∧ (∀ page ∈ m.pages address length, ¬m.Mapped page)
      ∧ UnchangedOff (m.pages address length) m m'
      ∧ (∀ page ∈ m.pages address length, m'.pageState page = encodePageState permissions)
      ∧ m'.reservation = m.reservation := by
  obtain ⟨h1, h2, h3, h4⟩ := setPages_ok h
  exact ⟨h1, h2, fun page hp => by simp [Mapped, h3 page hp], h4⟩

/-- A successful `protect` found its pages mapped. -/
lemma protect_ok (h : m.protect address length permissions = (true, m')) :
    m.validPageRange address length = true ∧ validPermissions permissions = true
      ∧ (∀ page ∈ m.pages address length, m.Mapped page)
      ∧ UnchangedOff (m.pages address length) m m'
      ∧ (∀ page ∈ m.pages address length, m'.pageState page = encodePageState permissions)
      ∧ m'.reservation = m.reservation := by
  obtain ⟨h1, h2, h3, h4⟩ := setPages_ok h
  exact ⟨h1, h2, fun page hp => by simpa [Mapped] using h3 page hp, h4⟩

lemma map_failed (h : m.map address length permissions = (false, m')) :
    UnchangedOff ∅ m m' := setPages_failed h

lemma protect_failed (h : m.protect address length permissions = (false, m')) :
    UnchangedOff ∅ m m' := setPages_failed h

lemma map_succeeds (hr : m.IsPageRange address length)
    (hperm : validPermissions permissions = true)
    (hfree : ∀ page ∈ m.pages address length, ¬m.Mapped page)
    (hhost : ∀ n, m.host n .mapMprotect = true) :
    ∃ m', m.map address length permissions = (true, m') :=
  setPages_succeeds hr hperm (fun page hp => by simpa [Mapped] using hfree page hp) hhost

lemma protect_succeeds (hr : m.IsPageRange address length)
    (hperm : validPermissions permissions = true)
    (hmapped : ∀ page ∈ m.pages address length, m.Mapped page)
    (hhost : ∀ n, m.host n .protectMprotect = true) :
    ∃ m', m.protect address length permissions = (true, m') :=
  setPages_succeeds hr hperm (fun page hp => by simpa [Mapped] using hmapped page hp) hhost

/-! ### Unmapping -/

/-- What a successful `unmap` found and leaves: its pages are unmapped and read
as zero. -/
lemma unmap_ok (h : m.unmap address length = (true, m')) :
    m.validPageRange address length = true
      ∧ (∀ page ∈ m.pages address length, m.Mapped page)
      ∧ m'.pageSize = m.pageSize ∧ m'.host = m.host
      ∧ (∀ page ∉ m.pages address length, m'.pageState page = m.pageState page)
      ∧ (∀ page ∈ m.pages address length, m'.pageState page = 0)
      ∧ m'.reservation = fill m.reservation address.toNat length 0 := by
  rw [unmap] at h
  split at h
  · simp at h
  rename_i hv
  rw [Bool.not_eq_true, Bool.not_eq_false'] at hv
  split at h
  · simp at h
  rename_i hall
  rw [Bool.not_eq_true,
    any_range_eq_false (p := fun page => !pageIsMapped (m.pageState page))] at hall
  split at h
  · simp at h
  rename_i m₁ hadvise
  split at h
  · simp at h
  rename_i m₂ hprot
  obtain ⟨hsize, hhost, hstate, hbytes⟩ := mprotect_ok hprot
  have h₁ := madviseDontneed_ok hadvise
  simp only [Prod.mk.injEq, true_and] at h
  subst h h₁
  refine ⟨hv, fun page hp => ?_, hsize, hhost, fun page hp => ?_, fun page hp => ?_, hbytes⟩
  · simpa [Mapped] using hall page hp.1 hp.2
  · rw [mem_pages] at hp
    show fill m₂.pageState _ _ _ page = _
    rw [fill_of_outside (by omega), hstate]
  · exact fill_of_mem hp.1 hp.2

lemma unmap_ok_unchangedOff (h : m.unmap address length = (true, m'))
    (hr : m.IsPageRange address length) : UnchangedOff (m.pages address length) m m' := by
  obtain ⟨-, -, hsize, hhost, hstate, -, hbytes⟩ := unmap_ok h
  refine ⟨hsize, hhost, hstate, fun x hx => ?_⟩
  rw [hr.mem_pages_iff] at hx
  rw [hbytes, fill_of_outside (by omega)]

/-- What an `unmap` that returns false leaves: everything as it was, or, between its two
host calls, zero bytes. -/
lemma unmap_failed (h : m.unmap address length = (false, m')) :
    m'.pageSize = m.pageSize ∧ m'.host = m.host ∧ m'.pageState = m.pageState
      ∧ (m'.reservation = m.reservation
        ∨ (m.validPageRange address length = true
          ∧ (∀ page ∈ m.pages address length, m.Mapped page)
          ∧ m.host m.hostCalls .unmapMadvise = true
          ∧ m.host (m.hostCalls + 1) .unmapMprotect = false
          ∧ m'.reservation = fill m.reservation address.toNat length 0)) := by
  rw [unmap] at h
  split at h
  · cases h
    exact ⟨rfl, rfl, rfl, Or.inl rfl⟩
  rename_i hvalid
  rw [Bool.not_eq_true, Bool.not_eq_false'] at hvalid
  split at h
  · cases h
    exact ⟨rfl, rfl, rfl, Or.inl rfl⟩
  rename_i hall
  rw [Bool.not_eq_true,
    any_range_eq_false (p := fun page => !pageIsMapped (m.pageState page))] at hall
  rw [madviseDontneed] at h
  cases hadvise : m.host m.hostCalls .unmapMadvise with
  | false =>
      rw [hadvise] at h
      cases h
      exact ⟨rfl, rfl, rfl, Or.inl rfl⟩
  | true =>
      rw [hadvise, if_pos rfl] at h
      dsimp only [mprotect] at h
      cases hprotect : m.host (m.hostCalls + 1) .unmapMprotect with
      | true =>
          rw [hprotect] at h
          cases h
      | false =>
          rw [hprotect] at h
          cases h
          refine ⟨rfl, rfl, rfl, Or.inr ⟨hvalid, fun page hp => ?_, rfl, rfl, rfl⟩⟩
          simpa [Mapped] using hall page hp.1 hp.2

/-- An `unmap` whose host calls succeed succeeds on a mapped range. -/
lemma unmap_succeeds (hr : m.IsPageRange address length)
    (hmapped : ∀ page ∈ m.pages address length, m.Mapped page)
    (hhost : ∀ n, m.host n .unmapMadvise = true ∧ m.host n .unmapMprotect = true) :
    ∃ m', m.unmap address length = (true, m') := by
  have hany : ((List.range (length / m.pageSize)).any fun index =>
      !pageIsMapped (m.pageState (m.pageIndex address + index))) = false := by
    rw [any_range_eq_false (p := fun page => !pageIsMapped (m.pageState page))]
    exact fun page h1 h2 => by simpa [Mapped] using hmapped page ⟨h1, h2⟩
  simp [unmap, madviseDontneed, mprotect, hr.valid, hany, hhost]

/-! ### Accesses -/

variable {required : MemoryPermission} {input out : List UInt8}

/-- A page grants an access. -/
def Grants (m : MappedGuestMemory) (required : MemoryPermission) (page : ℕ) : Prop :=
  m.Mapped page ∧ hasPermission (decodePermissions (m.pageState page)) required = true

/-- An access is valid when it is empty, or inside the address space with every
page it touches granting it. -/
lemma validAccess_iff : m.validAccess address length required = true
    ↔ length = 0 ∨ (address.toNat + length ≤ 2 ^ 32
        ∧ ∀ x, address.toNat ≤ x → x < address.toNat + length →
            m.Grants required (x / m.pageSize)) := by
  have hpos := m.pageSize_pos
  rw [validAccess]
  split
  · simp_all
  rename_i h0
  split
  · simp only [Bool.false_eq_true, h0, false_or, false_iff, not_and]
    omega
  rename_i hend
  rw [all_range_eq_true (p := fun page => pageIsMapped (m.pageState page)
    && hasPermission (decodePermissions (m.pageState page)) required)]
  simp only [h0, false_or, Bool.and_eq_true, show address.toNat + length ≤ 2 ^ 32 by omega,
    true_and]
  have hmono : m.pageIndex address ≤ (address.toNat + length - 1) / m.pageSize :=
    Nat.div_le_div_right (by omega)
  constructor
  · intro h x hx hlt
    have h1 : address.toNat / m.pageSize ≤ x / m.pageSize := Nat.div_le_div_right hx
    have h2 : x / m.pageSize ≤ (address.toNat + length - 1) / m.pageSize :=
      Nat.div_le_div_right (by omega)
    exact h _ h1 (by omega)
  · intro h page h1 h2
    -- the touched byte of the page: its first one, or the first of the access
    have h3 : page ≤ (address.toNat + length - 1) / m.pageSize := by omega
    rw [Nat.le_div_iff_mul_le hpos] at h3
    rcases Nat.lt_or_ge (page * m.pageSize) address.toNat with hlt | hge
    · have h4 : address.toNat / m.pageSize = page :=
        le_antisymm h1 ((Nat.le_div_iff_mul_le hpos).mpr hlt.le)
      exact h4 ▸ h address.toNat le_rfl (by omega)
    · have h4 : page * m.pageSize / m.pageSize = page := Nat.mul_div_cancel _ hpos
      exact h4 ▸ h (page * m.pageSize) hge (by omega)

lemma read_eq_some : GuestMemory.read m address length = some out
    ↔ m.validAccess address length .read = true
      ∧ out = window m.reservation address.toNat length := by
  change (if _ then _ else _) = _ ↔ _
  split
  · rename_i hv
    rw [Option.some.injEq]
    exact ⟨fun h => ⟨hv, h.symm⟩, fun h => h.2.symm⟩
  · rename_i hv
    exact ⟨fun h => absurd h (by simp), fun h => absurd h.1 hv⟩

/-- The bytes of a range may all be read. -/
def Readable (m : MappedGuestMemory) (start length : ℕ) : Prop :=
  start + length ≤ 2 ^ 32
    ∧ ∀ x, start ≤ x → x < start + length → m.Grants .read (x / m.pageSize)

lemma read_eq_some_iff_readable : GuestMemory.read m address length = some out
    ↔ m.Readable address.toNat length ∧ out = window m.reservation address.toNat length := by
  rw [read_eq_some, validAccess_iff, Readable]
  refine and_congr_left fun _ => ⟨?_, Or.inr⟩
  rintro (rfl | h)
  · exact ⟨address.toNat_lt.le, fun x hx hlt => absurd hx (Nat.not_le.mpr hlt)⟩
  · exact h

namespace Readable

variable {start start' length' : ℕ}

lemma sub (h : m.Readable start length) (hstart : start ≤ start')
    (hend : start' + length' ≤ start + length) : m.Readable start' length' :=
  ⟨hend.trans h.1, fun x hx hlt => h.2 x (hstart.trans hx) (hlt.trans_le hend)⟩

lemma append (h : m.Readable start length) (h' : m.Readable (start + length) length') :
    m.Readable start (length + length') := by
  refine ⟨Nat.add_assoc start length length' ▸ h'.1, fun x hx hlt => ?_⟩
  rcases Nat.lt_or_ge x (start + length) with hx' | hx'
  · exact h.2 x hx hx'
  · exact h'.2 x hx' (by omega)

/-- A read inside a readable range. -/
lemma read (h : m.Readable start length) (hstart : start ≤ start')
    (hend : start' + length' ≤ start + length) (hlt : start' < 2 ^ 32) :
    GuestMemory.reads m (UInt32.ofNat start', length')
      = some (window m.reservation start' length') := by
  have hnat : (UInt32.ofNat start').toNat = start' := UInt32.toNat_ofNat_of_lt' hlt
  refine read_eq_some_iff_readable.mpr ⟨?_, ?_⟩
  · rw [hnat]
    exact h.sub hstart hend
  · rw [hnat]

end Readable

/-- The memory with other bytes. -/
def withBytes (m : MappedGuestMemory) (bytes : ℕ → UInt8) : MappedGuestMemory :=
  { m with reservation := bytes }

@[simp] lemma withBytes_reservation (bytes : ℕ → UInt8) :
    (m.withBytes bytes).reservation = bytes := rfl

@[simp] lemma withBytes_withBytes (bytes bytes' : ℕ → UInt8) :
    (m.withBytes bytes).withBytes bytes' = m.withBytes bytes' := rfl

@[simp] lemma withBytes_self : m.withBytes m.reservation = m := rfl

lemma write_eq_true (h : GuestMemory.write m address input = (true, m')) :
    m.validAccess address input.length .write = true
      ∧ m' = m.withBytes (overwrite m.reservation address.toNat input) := by
  change (if _ then _ else _) = _ at h
  split at h
  · cases h
    exact ⟨by assumption, rfl⟩
  · simp at h

/-- A write that fails was denied by the pages and has no effect. -/
lemma write_eq_false (h : GuestMemory.write m address input = (false, m')) :
    m.validAccess address input.length .write = false ∧ m' = m := by
  change (if _ then _ else _) = _ at h
  split at h
  · simp at h
  · cases h
    exact ⟨by simp_all, rfl⟩

/-- Writing into pages that grant it succeeds, and only the bytes change. -/
lemma write_granted {start : ℕ} (hstart : address.toNat = start)
    (hend : start + input.length ≤ 2 ^ 32)
    (hgrant : ∀ x, start ≤ x → x < start + input.length → m.Grants .write (x / m.pageSize)) :
    GuestMemory.write m address input
      = (true, m.withBytes (overwrite m.reservation start input)) := by
  subst hstart
  exact if_pos (validAccess_iff.mpr (Or.inr ⟨hend, hgrant⟩))

instance : LawfulGuestMemory MappedGuestMemory where
  bytes := reservation
  read_exact h := (read_eq_some.mp h).2
  write_ok h := by rw [(write_eq_true h).2, withBytes_reservation]
  write_failed h _ _ := by rw [(write_eq_false h).2]

/-! ### The permissions of pages -/

/-- The permissions of a page, if it is mapped. -/
def mappedPermissions (m : MappedGuestMemory) (page : ℕ) : Option MemoryPermission :=
  if pageIsMapped (m.pageState page) then some (decodePermissions (m.pageState page)) else none

lemma mapped_iff_isSome {page : ℕ} : m.Mapped page ↔ (m.mappedPermissions page).isSome := by
  rw [Mapped, mappedPermissions]
  cases pageIsMapped (m.pageState page) with
  | true => exact iff_of_true rfl rfl
  | false => exact iff_of_false Bool.false_ne_true Bool.false_ne_true

lemma grants_iff {required : MemoryPermission} {page : ℕ} : m.Grants required page
    ↔ ∃ permissions, m.mappedPermissions page = some permissions
        ∧ hasPermission permissions required = true := by
  rw [Grants, Mapped, mappedPermissions]
  cases pageIsMapped (m.pageState page) with
  | true => simp
  | false => simp

lemma mappedPermissions_encode {permissions : MemoryPermission} {page : ℕ}
    (hvalid : validPermissions permissions = true)
    (h : m.pageState page = encodePageState permissions) :
    m.mappedPermissions page = some permissions := by
  rw [mappedPermissions, h, pageIsMapped_encode, if_pos rfl, decodePermissions_encode hvalid]

lemma UnchangedOff.mappedPermissions {P : Set ℕ} {page : ℕ} (h : UnchangedOff P m m')
    (hp : page ∉ P) : m'.mappedPermissions page = m.mappedPermissions page := by
  rw [MappedGuestMemory.mappedPermissions, MappedGuestMemory.mappedPermissions,
    h.pageState page hp]

lemma isMapped_eq (m : MappedGuestMemory) (address : UInt32) :
    m.isMapped address = (m.mappedPermissions (m.pageIndex address)).isSome := by
  rw [isMapped, mappedPermissions]
  cases pageIsMapped (m.pageState (m.pageIndex address)) with
  | true => rfl
  | false => rfl

lemma permissions_eq (m : MappedGuestMemory) (address : UInt32) :
    m.permissions address = (m.mappedPermissions (m.pageIndex address)).getD .none := by
  rw [permissions, mappedPermissions]
  cases pageIsMapped (m.pageState (m.pageIndex address)) with
  | true => rfl
  | false => rfl

end MappedGuestMemory

end LibA32Android

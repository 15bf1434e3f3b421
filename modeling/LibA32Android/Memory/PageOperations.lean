/-
Two limits of the page operations.

`valid_page_range` compares a 64-bit sum, and `unmap` makes two host calls, of
which the first one drops the bytes.

* `PageOperation`: `map`, `protect` and `unmap` as one family, with the page
  states that stop their loops;
* `inspectedPages`, `PageOperation.indices`: the indices of `page_state_` that an
  operation inspects or writes;
* `staysInside_iff`: an operation stays inside the address space unless the sum
  wraps and no page up to the end of the space stops the loop;
* `failed_unaltered_iff`: an operation that returns false has changed nothing
  unless it is an `unmap` whose `madvise` succeeded, whose `mprotect` failed, and
  whose bytes were not all zero.
-/
import LibA32Android.Memory.Mapped

namespace LibA32Android

open Foundations

/-- A page operation; the range is given apart. -/
inductive PageOperation where
  | map (permissions : MemoryPermission)
  | protect (permissions : MemoryPermission)
  | unmap
  deriving DecidableEq, Repr

namespace PageOperation

/-- The call. -/
def run (m : MappedGuestMemory) (address : UInt32) (length : ℕ) :
    PageOperation → Bool × MappedGuestMemory
  | .map permissions => m.map address length permissions
  | .protect permissions => m.protect address length permissions
  | .unmap => m.unmap address length

/-- A page with this state ends the validation loop with a refusal. -/
def stops : PageOperation → UInt8 → Bool
  | .map _ => pageIsMapped
  | .protect _ => fun state => !pageIsMapped state
  | .unmap => fun state => !pageIsMapped state

/-- The check on the permissions; `unmap` has none. -/
def permitted : PageOperation → Bool
  | .map permissions => MappedGuestMemory.validPermissions permissions
  | .protect permissions => MappedGuestMemory.validPermissions permissions
  | .unmap => true

end PageOperation

namespace MappedGuestMemory

/-- The indices that a validation loop over `count` pages inspects: up to and with
the first one that stops it. -/
def inspectedPages (stops : ℕ → Bool) : ℕ → ℕ → List ℕ
  | _, 0 => []
  | first, count + 1 =>
    first :: if stops first then [] else inspectedPages stops (first + 1) count

/-- The indices of `page_state_` that an operation inspects, and then those it
writes. -/
def indices (m : MappedGuestMemory) (operation : PageOperation) (address : UInt32) (length : ℕ) :
    List ℕ :=
  if !m.validPageRange address length || !operation.permitted then []
  else
    inspectedPages (fun page => operation.stops (m.pageState page)) (m.pageIndex address)
        (length / m.pageSize)
      ++ if (operation.run m address length).1 then
          List.range' (m.pageIndex address) (length / m.pageSize)
        else []

variable {m m' : MappedGuestMemory} {address : UInt32} {length : ℕ} {operation : PageOperation}

/-! ### The validation loop -/

section Loop

variable {stops : ℕ → Bool} {first count : ℕ}

/-- Until a page stops it the loop goes on. -/
lemma mem_inspectedPages {index : ℕ} : index ∈ inspectedPages stops first count
    ↔ first ≤ index ∧ index < first + count
      ∧ ∀ page, first ≤ page → page < index → stops page = false := by
  induction count generalizing first with
  | zero =>
      simp only [inspectedPages, List.not_mem_nil, false_iff]
      rintro ⟨h1, h2, -⟩
      omega
  | succ count ih =>
      rw [inspectedPages, List.mem_cons]
      constructor
      · rintro (rfl | h)
        · exact ⟨le_rfl, by omega, fun page h1 h2 => by omega⟩
        · cases hstop : stops first with
          | true =>
              rw [hstop, if_pos rfl] at h
              exact absurd h List.not_mem_nil
          | false =>
              rw [hstop, if_neg Bool.false_ne_true, ih] at h
              obtain ⟨h1, h2, h3⟩ := h
              refine ⟨by omega, by omega, fun page h4 h5 => ?_⟩
              rcases Nat.eq_or_lt_of_le h4 with rfl | h4
              · exact hstop
              · exact h3 page h4 h5
      · rintro ⟨h1, h2, h3⟩
        rcases Nat.eq_or_lt_of_le h1 with rfl | h1
        · exact Or.inl rfl
        · right
          rw [h3 first le_rfl h1, if_neg Bool.false_ne_true, ih]
          exact ⟨h1, by omega, fun page h4 h5 => h3 page (by omega) h5⟩

/-- The loop refuses when it inspects a page that stops it. -/
lemma any_inspectedPages (stops : ℕ → Bool) (first count : ℕ) :
    (inspectedPages stops first count).any stops
      = (List.range count).any fun index => stops (first + index) := by
  rw [Bool.eq_iff_iff, List.any_eq_true, List.any_eq_true]
  constructor
  · rintro ⟨page, hpage, hstop⟩
    obtain ⟨h1, h2, -⟩ := mem_inspectedPages.mp hpage
    refine ⟨page - first, List.mem_range.mpr (by omega), ?_⟩
    rwa [Nat.add_sub_cancel' h1]
  · rintro ⟨index, hindex, hstop⟩
    -- the first page that stops the loop is inspected
    have hex : ∃ page, first ≤ page ∧ stops page = true := ⟨first + index, by omega, hstop⟩
    have hmin : ∀ page < Nat.find hex, ¬(first ≤ page ∧ stops page = true) :=
      fun page => Nat.find_min hex
    have hle := Nat.find_min' hex ⟨by omega, hstop⟩
    obtain ⟨h1, h2⟩ := Nat.find_spec hex
    refine ⟨Nat.find hex, mem_inspectedPages.mpr ⟨h1, ?_, fun page h3 h4 => ?_⟩, h2⟩
    · have := List.mem_range.mp hindex
      omega
    · exact Bool.not_eq_true _ ▸ fun hpage => hmin page h4 ⟨h3, hpage⟩

end Loop

/-- `map` and `protect` refuse a range that fails the checks or the loop. -/
lemma setPages_refused {call : HostCall} {wrong : UInt8 → Bool} {permissions : MemoryPermission}
    (h : m.validPageRange address length = false ∨ validPermissions permissions = false
      ∨ ((List.range (length / m.pageSize)).any fun index =>
          wrong (m.pageState (m.pageIndex address + index))) = true) :
    m.setPages call wrong address length permissions = (false, m) := by
  rw [setPages]
  rcases h with h | h | h
  · rw [h, Bool.not_false, Bool.true_or, if_pos rfl]
  · rw [h, Bool.not_false, Bool.or_true, if_pos rfl]
  · rw [if_pos h, ite_self]

/-- The three operations refuse a range for the same reasons. -/
lemma run_refused (h : m.validPageRange address length = false ∨ operation.permitted = false
      ∨ (inspectedPages (fun page => operation.stops (m.pageState page)) (m.pageIndex address)
          (length / m.pageSize)).any (fun page => operation.stops (m.pageState page)) = true) :
    operation.run m address length = (false, m) := by
  rw [any_inspectedPages] at h
  cases operation with
  | map permissions => exact setPages_refused h
  | protect permissions => exact setPages_refused h
  | unmap =>
      rw [PageOperation.run, unmap]
      rcases h with h | h | h
      · rw [h, Bool.not_false, if_pos rfl]
      · exact absurd h (by decide)
      · split
        · rfl
        · exact if_pos h

/-! ### The address space -/

/-- An operation returns false or acts on a range inside the address space, and every
index of `page_state_` it inspects or writes is one of a page. -/
def StaysInside (m : MappedGuestMemory) (operation : PageOperation) (address : UInt32)
    (length : ℕ) : Prop :=
  ((operation.run m address length).1 = false ∨ address.toNat + length ≤ 2 ^ 32)
    ∧ ∀ index ∈ m.indices operation address length, index < 2 ^ 32 / m.pageSize

/-- The range is aligned, the 64-bit sum wraps, and no page from the address to the end
of the space stops the loop. -/
def Overruns (m : MappedGuestMemory) (operation : PageOperation) (address : UInt32)
    (length : ℕ) : Prop :=
  m.pageSize ∣ address.toNat ∧ m.pageSize ∣ length ∧ operation.permitted = true
    ∧ 2 ^ 64 ≤ address.toNat + length
    ∧ ∀ page, m.pageIndex address ≤ page → page < 2 ^ 32 / m.pageSize →
        operation.stops (m.pageState page) = false

lemma dvd_of_validPageRange (h : m.validPageRange address length = true) :
    m.pageSize ∣ address.toNat ∧ m.pageSize ∣ length := by
  rw [validPageRange] at h
  split at h
  · cases h
  · rename_i hc
    simp only [not_or, not_not] at hc
    exact ⟨Nat.dvd_of_mod_eq_zero hc.2.2.1, Nat.dvd_of_mod_eq_zero hc.2.2.2⟩

/-- A sum that wraps passes the check. -/
lemma validPageRange_of_wrap (haddress : m.pageSize ∣ address.toNat) (hlength : m.pageSize ∣ length)
    (hlt : length < 2 ^ 64) (hwrap : 2 ^ 64 ≤ address.toNat + length) :
    m.validPageRange address length = true := by
  have hpos := m.pageSize_pos
  have hspace := address.toNat_lt
  rw [validPageRange, if_neg]
  · rw [decide_eq_true_eq]
    omega
  · rintro (h0 | h0 | h0 | h0)
    · omega
    · omega
    · exact h0 (Nat.mod_eq_zero_of_dvd haddress)
    · exact h0 (Nat.mod_eq_zero_of_dvd hlength)

/-- The pages of a range whose sum wraps go past the end of the space. -/
lemma lt_count_of_wrap (haddress : m.pageSize ∣ address.toNat)
    (hwrap : 2 ^ 64 ≤ address.toNat + length) :
    2 ^ 32 / m.pageSize < m.pageIndex address + length / m.pageSize := by
  have hpos := m.pageSize_pos
  have hle : m.pageSize ≤ 2 ^ 32 := Nat.le_of_dvd (by norm_num) m.pageSize_dvd
  calc 2 ^ 32 / m.pageSize < 2 ^ 32 / m.pageSize + 1 := Nat.lt_succ_self _
    _ = 2 ^ 32 / m.pageSize + m.pageSize / m.pageSize := by rw [Nat.div_self hpos]
    _ = (2 ^ 32 + m.pageSize) / m.pageSize := (Nat.add_div_of_dvd_right m.pageSize_dvd).symm
    _ ≤ (address.toNat + length) / m.pageSize := Nat.div_le_div_right (by omega)
    _ = m.pageIndex address + length / m.pageSize := Nat.add_div_of_dvd_right haddress

/-- The loop of an overrunning operation inspects the index behind the last page. -/
lemma Overruns.mem_indices (h : m.Overruns operation address length) (hlt : length < 2 ^ 64) :
    2 ^ 32 / m.pageSize ∈ m.indices operation address length := by
  obtain ⟨haddress, hlength, hpermitted, hwrap, hpages⟩ := h
  rw [indices, validPageRange_of_wrap haddress hlength hlt hwrap, hpermitted, if_neg (by decide),
    List.mem_append, mem_inspectedPages]
  exact Or.inl ⟨Nat.div_le_div_right address.toNat_lt.le, lt_count_of_wrap haddress hwrap, hpages⟩

/-- An overrunning operation does not stay inside. -/
lemma Overruns.not_staysInside (h : m.Overruns operation address length)
    (hlt : length < 2 ^ 64) : ¬m.StaysInside operation address length :=
  fun hinside => Nat.lt_irrefl _ (hinside.2 _ (h.mem_indices hlt))

/-- The indices of a range inside the address space are those of its pages. -/
lemma IsPageRange.index_lt (h : m.IsPageRange address length) {index : ℕ}
    (hindex : index ∈ m.indices operation address length) : index < 2 ^ 32 / m.pageSize := by
  have hmem : m.pageIndex address ≤ index ∧ index < m.pageIndex address + length / m.pageSize := by
    rw [indices] at hindex
    split at hindex
    · exact absurd hindex List.not_mem_nil
    · rcases List.mem_append.mp hindex with hindex | hindex
      · obtain ⟨h1, h2, -⟩ := mem_inspectedPages.mp hindex
        exact ⟨h1, h2⟩
      · split at hindex
        · obtain ⟨i, hi, rfl⟩ := List.mem_range'.mp hindex
          exact ⟨by omega, by omega⟩
        · exact absurd hindex List.not_mem_nil
  have hle := h.page_lt (mem_pages.mpr hmem)
  rw [← Nat.le_div_iff_mul_le m.pageSize_pos] at hle
  omega

/-- A sum that wraps with a page that stops the loop below the end of the space: the
loop ends there. -/
lemma staysInside_of_stop {page : ℕ} (hfirst : m.pageIndex address ≤ page)
    (hpage : page < 2 ^ 32 / m.pageSize) (hcount : page < m.pageIndex address + length / m.pageSize)
    (hstop : operation.stops (m.pageState page) = true) :
    m.StaysInside operation address length := by
  have hany : (inspectedPages (fun page => operation.stops (m.pageState page))
      (m.pageIndex address) (length / m.pageSize)).any
        (fun page => operation.stops (m.pageState page)) = true := by
    rw [any_inspectedPages fun page => operation.stops (m.pageState page), List.any_eq_true]
    refine ⟨page - m.pageIndex address, List.mem_range.mpr (by omega), ?_⟩
    rwa [Nat.add_sub_cancel' hfirst]
  have hrun := run_refused (Or.inr (Or.inr hany))
  refine ⟨Or.inl (by rw [hrun]), fun index hindex => ?_⟩
  rw [indices, hrun] at hindex
  split at hindex
  · exact absurd hindex List.not_mem_nil
  · rw [if_neg Bool.false_ne_true, List.append_nil, mem_inspectedPages] at hindex
    obtain ⟨-, -, hbefore⟩ := hindex
    by_contra hge
    have hnot := hbefore page hfirst (by omega)
    rw [hstop] at hnot
    cases hnot

/-- **Page operations stay inside the 4 GiB space** exactly when they do not overrun
it. -/
theorem staysInside_iff (m : MappedGuestMemory) (operation : PageOperation) (address : UInt32)
    (length : UInt64) :
    m.StaysInside operation address length.toNat ↔ ¬m.Overruns operation address length.toNat := by
  refine ⟨fun hinside h => h.not_staysInside length.toNat_lt hinside, fun h => ?_⟩
  by_cases hpass : m.validPageRange address length.toNat = true ∧ operation.permitted = true
  · obtain ⟨hvalid, hpermitted⟩ := hpass
    rcases Nat.lt_or_ge (address.toNat + length.toNat) (2 ^ 64) with hsum | hwrap
    · have hrange := isPageRange_of_valid hvalid hsum
      exact ⟨Or.inr hrange.end_le, fun index hindex => hrange.index_lt hindex⟩
    · obtain ⟨haddress, hdvd⟩ := dvd_of_validPageRange hvalid
      -- some page below the end of the space stops the loop
      have hstop : ∃ page, m.pageIndex address ≤ page ∧ page < 2 ^ 32 / m.pageSize
          ∧ operation.stops (m.pageState page) = true := by
        by_contra hnone
        push Not at hnone
        exact h ⟨haddress, hdvd, hpermitted, hwrap, fun page h1 h2 =>
          Bool.not_eq_true _ ▸ hnone page h1 h2⟩
      obtain ⟨page, hfirst, hpage, hstop⟩ := hstop
      exact staysInside_of_stop hfirst hpage (hpage.trans (lt_count_of_wrap haddress hwrap)) hstop
  · have hrefused : m.validPageRange address length.toNat = false
        ∨ operation.permitted = false := by
      rwa [not_and_or, Bool.not_eq_true, Bool.not_eq_true] at hpass
    have hrun : operation.run m address length.toNat = (false, m) :=
      run_refused (hrefused.imp id Or.inl)
    refine ⟨Or.inl (by rw [hrun]), fun index hindex => ?_⟩
    rw [indices, if_pos] at hindex
    · exact absurd hindex List.not_mem_nil
    · rcases hrefused with h | h
      · rw [h, Bool.not_false, Bool.true_or]
      · rw [h, Bool.not_false, Bool.or_true]

/-- On a memory without mappings, mapping everything from the second page on and as much
again as makes the sum wrap inspects the index behind the last page. -/
theorem map_overruns : ¬(create 4096 (fun _ _ => true) fourKiB_dvd).StaysInside (.map .read) 0x1000
    (0xfffffffffffff000 : UInt64).toNat := by
  refine Overruns.not_staysInside ⟨by decide, by decide, by decide, by decide, ?_⟩ (by decide)
  intro page _ _
  exact pageIsMapped_zero

/-! ### Failed operations -/

/-- Every page has the same mapped flag and permissions, and every mapped page the same
bytes. -/
structure Unaltered (m m' : MappedGuestMemory) : Prop where
  pageState : ∀ page, m'.pageState page = m.pageState page
  bytes : ∀ x, m.Mapped (x / m.pageSize) → m'.reservation x = m.reservation x

/-- An `unmap` of a mapped range whose `madvise` succeeds and whose `mprotect` fails,
with a byte that is not zero. -/
def TornUnmap (m : MappedGuestMemory) (address : UInt32) (length : ℕ) : Prop :=
  m.validPageRange address length = true
    ∧ (∀ page ∈ m.pages address length, m.Mapped page)
    ∧ m.host m.hostCalls .unmapMadvise = true
    ∧ m.host (m.hostCalls + 1) .unmapMprotect = false
    ∧ ∃ x, address.toNat ≤ x ∧ x < address.toNat + length ∧ m.Mapped (x / m.pageSize)
        ∧ m.reservation x ≠ 0

/-- An `unmap` of a mapped range stops between its host calls when the second one
fails. -/
lemma TornUnmap.run (h : m.TornUnmap address length) : m.unmap address length
    = (false, { m with
        hostCalls := m.hostCalls + 2
        reservation := fill m.reservation address.toNat length 0 }) := by
  obtain ⟨hvalid, hmapped, hadvise, hprotect, -⟩ := h
  have hany : ((List.range (length / m.pageSize)).any fun index =>
      !pageIsMapped (m.pageState (m.pageIndex address + index))) = false := by
    rw [any_range_eq_false (p := fun page => !pageIsMapped (m.pageState page))]
    exact fun page h1 h2 => by simpa [Mapped] using hmapped page ⟨h1, h2⟩
  simp [unmap, madviseDontneed, mprotect, hvalid, hany, hadvise, hprotect]

/-- **Failed page operations change nothing**, unless they are an `unmap` that stops
between its host calls. -/
theorem failed_unaltered_iff (m : MappedGuestMemory) (operation : PageOperation)
    (address : UInt32) (length : ℕ) :
    ((operation.run m address length).1 = false
        → m.Unaltered (operation.run m address length).2)
      ↔ ¬(operation = .unmap ∧ m.TornUnmap address length) := by
  have hsetPages {permissions : MemoryPermission} {call : HostCall} {wrong : UInt8 → Bool}
      (hfailed : (m.setPages call wrong address length permissions).1 = false) :
      m.Unaltered (m.setPages call wrong address length permissions).2 := by
    have hsame : UnchangedOff ∅ m (m.setPages call wrong address length permissions).2 :=
      setPages_failed (Prod.ext hfailed rfl)
    exact ⟨fun page => hsame.pageState page (Set.notMem_empty _),
      fun x _ => hsame.bytes x (Set.notMem_empty _)⟩
  cases operation with
  | map permissions => exact iff_of_true hsetPages fun h => by cases h.1
  | protect permissions => exact iff_of_true hsetPages fun h => by cases h.1
  | unmap =>
      constructor
      · rintro hproperty ⟨-, htorn⟩
        have hrun := htorn.run
        obtain ⟨-, -, -, -, x, hle, hlt, hmapped, hbyte⟩ := htorn
        have hsame := (hproperty (by rw [PageOperation.run, hrun])).bytes x hmapped
        rw [PageOperation.run, hrun] at hsame
        exact hbyte (hsame.symm.trans (fill_of_mem hle hlt))
      · intro hwhole hfailed
        obtain ⟨-, -, hstate, hbytes⟩ := unmap_failed
          (show m.unmap address length = (false, (m.unmap address length).2) from
            Prod.ext hfailed rfl)
        refine ⟨fun page => congrFun hstate page, fun x hmapped => ?_⟩
        rcases hbytes with hbytes | ⟨hvalid, hpages, hadvise, hprotect, hbytes⟩
        · exact congrFun hbytes x
        · show (m.unmap address length).2.reservation x = _
          rw [hbytes]
          by_cases hx : address.toNat ≤ x ∧ x < address.toNat + length
          · rw [fill_of_mem hx.1 hx.2]
            -- a byte of the range that is not zero would make the call a torn one
            by_contra hne
            exact hwhole ⟨rfl, hvalid, hpages, hadvise, hprotect, x, hx.1, hx.2, hmapped,
              fun hzero => hne hzero.symm⟩
          · exact fill_of_outside (by omega)

/-- A page with one byte written, on a host that fails the third call made to it. -/
def tornMemory : MappedGuestMemory :=
  (GuestMemory.write ((create 4096 (fun n _ => n != 2) fourKiB_dvd).map 0x1000 4096
    (.read ||| .write)).2 0x1000 [7]).2

/-- The page stays mapped and readable, and its byte is gone. -/
theorem unmap_drops_bytes : (tornMemory.unmap 0x1000 4096).1 = false
    ∧ ¬tornMemory.Unaltered (tornMemory.unmap 0x1000 4096).2 := by
  have hfailed : (tornMemory.unmap 0x1000 4096).1 = false := by decide +kernel
  refine ⟨hfailed, fun hsame => ?_⟩
  have hbefore : tornMemory.reservation 0x1000 = 7 := by decide +kernel
  have hafter : (tornMemory.unmap 0x1000 4096).2.reservation 0x1000 = 0 := by decide +kernel
  have hbyte := hsame.bytes 0x1000 (by decide +kernel)
  rw [hbefore, hafter] at hbyte
  cases hbyte

end MappedGuestMemory

end LibA32Android

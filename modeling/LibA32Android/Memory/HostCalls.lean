/-
Host calls, counted.

On the right pages an operation fails only when the host refuses one of its calls.
So the host's answers from a given call on tell how a load and a rollback go.

* `map_answer`, `protect_answer`, `unmap_answer`: outcome and number of host calls;
* `protect_hostCalls_le`: no call is taken back;
* `unmapsGranted`, `afterUnmaps`: the answers to the calls of several unmaps, and
  the number of the first call after them;
* `Owns`, `Owns.unmapAll`: a rollback of ranges that are all mapped reports whether
  the host granted its calls, and some page is left exactly when it did not.
-/
import LibA32Android.Memory.Transaction

namespace LibA32Android

open Foundations

namespace MappedGuestMemory

variable {m m' m₀ : MappedGuestMemory} {address : UInt32} {length : ℕ}
  {permissions : MemoryPermission}

/-! ### Single operations -/

lemma setPages_answer {call : HostCall} {wrong : UInt8 → Bool} (hr : m.IsPageRange address length)
    (hperm : validPermissions permissions = true)
    (hright : ∀ page ∈ m.pages address length, wrong (m.pageState page) = false) :
    (m.setPages call wrong address length permissions).1 = m.host m.hostCalls call
      ∧ (m.setPages call wrong address length permissions).2.hostCalls = m.hostCalls + 1 := by
  have hany : ((List.range (length / m.pageSize)).any fun index =>
      wrong (m.pageState (m.pageIndex address + index))) = false := by
    rw [any_range_eq_false (p := fun page => wrong (m.pageState page))]
    exact fun page h1 h2 => hright page ⟨h1, h2⟩
  cases hhost : m.host m.hostCalls call with
  | true => simp [setPages, mprotect, hr.valid, hperm, hany, hhost, fillPageState]
  | false => simp [setPages, mprotect, hr.valid, hperm, hany, hhost]

lemma map_answer (hr : m.IsPageRange address length) (hperm : validPermissions permissions = true)
    (hfree : ∀ page ∈ m.pages address length, ¬m.Mapped page) :
    (m.map address length permissions).1 = m.host m.hostCalls .mapMprotect
      ∧ (m.map address length permissions).2.hostCalls = m.hostCalls + 1 :=
  setPages_answer hr hperm fun page hp => by simpa [Mapped] using hfree page hp

lemma protect_answer (hr : m.IsPageRange address length)
    (hperm : validPermissions permissions = true)
    (hmapped : ∀ page ∈ m.pages address length, m.Mapped page) :
    (m.protect address length permissions).1 = m.host m.hostCalls .protectMprotect
      ∧ (m.protect address length permissions).2.hostCalls = m.hostCalls + 1 :=
  setPages_answer hr hperm fun page hp => by simpa [Mapped] using hmapped page hp

/-- A `protect` makes host calls or makes none. -/
lemma protect_hostCalls_le : m.hostCalls ≤ (m.protect address length permissions).2.hostCalls := by
  rw [protect, setPages]
  split
  · exact le_rfl
  split
  · exact le_rfl
  rw [mprotect]
  cases m.host m.hostCalls .protectMprotect with
  | true => exact Nat.le_succ _
  | false => exact Nat.le_succ _

/-- The number of the first host call after an unmap that begins with call `n`. -/
def afterUnmap (host : ℕ → HostCall → Bool) (n : ℕ) : ℕ :=
  if host n .unmapMadvise then n + 2 else n + 1

lemma unmap_answer (hr : m.IsPageRange address length)
    (hmapped : ∀ page ∈ m.pages address length, m.Mapped page) :
    (m.unmap address length).1
        = (m.host m.hostCalls .unmapMadvise && m.host (m.hostCalls + 1) .unmapMprotect)
      ∧ (m.unmap address length).2.hostCalls = afterUnmap m.host m.hostCalls := by
  have hany : ((List.range (length / m.pageSize)).any fun index =>
      !pageIsMapped (m.pageState (m.pageIndex address + index))) = false := by
    rw [any_range_eq_false (p := fun page => !pageIsMapped (m.pageState page))]
    intro page h1 h2
    simpa [Mapped] using hmapped page ⟨h1, h2⟩
  cases hmadvise : m.host m.hostCalls .unmapMadvise with
  | false => simp [unmap, madviseDontneed, hr.valid, hany, hmadvise, afterUnmap]
  | true =>
      cases hprotect : m.host (m.hostCalls + 1) .unmapMprotect with
      | false =>
          simp [unmap, madviseDontneed, mprotect, hr.valid, hany, hmadvise, hprotect, afterUnmap]
      | true =>
          simp [unmap, madviseDontneed, mprotect, hr.valid, hany, hmadvise, hprotect, afterUnmap,
            fillPageState]

/-! ### Rollbacks -/

/-- The host grants the calls of `count` unmaps, the first of which is call `n`. -/
def unmapsGranted (host : ℕ → HostCall → Bool) : ℕ → ℕ → Bool
  | _, 0 => true
  | n, count + 1 =>
    host n .unmapMadvise && host (n + 1) .unmapMprotect
      && unmapsGranted host (afterUnmap host n) count

/-- The number of the first host call after them. -/
def afterUnmaps (host : ℕ → HostCall → Bool) : ℕ → ℕ → ℕ
  | n, 0 => n
  | n, count + 1 => afterUnmaps host (afterUnmap host n) count

/-- Disjoint page ranges, all of them mapped. -/
structure Owns (m : MappedGuestMemory) (ranges : List MappedRange) : Prop where
  isRange : ∀ r ∈ ranges, m.IsPageRange r.start r.length
  disjoint : ranges.Pairwise fun r r' =>
    Disjoint (m.pages r.start r.length) (m.pages r'.start r'.length)
  mapped : ∀ page ∈ m.rangePages ranges, m.Mapped page

/-- How a rollback goes: its report, the next host call, and the pages it leaves. -/
structure Unmapped (ranges : List MappedRange) (m : MappedGuestMemory)
    (s : Bool × MappedGuestMemory) : Prop where
  report : s.1 = unmapsGranted m.host m.hostCalls ranges.length
  hostCalls : s.2.hostCalls = afterUnmaps m.host m.hostCalls ranges.length
  pageSize : s.2.pageSize = m.pageSize
  host : s.2.host = m.host
  others : ∀ page ∉ m.rangePages ranges, s.2.pageState page = m.pageState page
  left_iff : s.1 = false ↔ ∃ page ∈ m.rangePages ranges, s.2.Mapped page

lemma pages_congr (h : m'.pageSize = m.pageSize) (address : UInt32) (length : ℕ) :
    m'.pages address length = m.pages address length := by
  rw [pages, pages, pageIndex, pageIndex, h]

lemma rangePages_congr (h : m'.pageSize = m.pageSize) (ranges : List MappedRange) :
    m'.rangePages ranges = m.rangePages ranges := by
  simp only [rangePages, pages_congr h]

lemma isPageRange_congr (h : m'.pageSize = m.pageSize) (hr : m.IsPageRange address length) :
    m'.IsPageRange address length :=
  ⟨hr.pos, h ▸ hr.address_dvd, h ▸ hr.length_dvd, hr.end_le⟩

lemma Acquired.owns {ranges : List MappedRange} (h : Acquired m₀ ranges m) : Owns m ranges where
  isRange r hr := h.frame.isPageRange.mpr (h.isRange r hr)
  disjoint := by simpa only [h.frame.pages] using h.disjoint
  mapped page hp := by
    rw [rangePages_congr h.frame.pageSize] at hp
    exact h.mapped page hp

/-- Ranges stay owned as long as the states of their pages stay. -/
lemma Owns.congr {ranges : List MappedRange} (h : Owns m ranges) (hsize : m'.pageSize = m.pageSize)
    (hstate : ∀ page ∈ m.rangePages ranges, m'.pageState page = m.pageState page) :
    Owns m' ranges where
  isRange r hr := isPageRange_congr hsize (h.isRange r hr)
  disjoint := by simpa only [pages_congr hsize] using h.disjoint
  mapped page hp := by
    rw [rangePages_congr hsize] at hp
    rw [Mapped, hstate page hp]
    exact h.mapped page hp

/-- A page range has a first page. -/
lemma IsPageRange.first_mem (h : m.IsPageRange address length) :
    m.pageIndex address ∈ m.pages address length := by
  have hpages : 0 < length / m.pageSize :=
    Nat.div_pos (Nat.le_of_dvd h.pos h.length_dvd) m.pageSize_pos
  exact ⟨le_rfl, by omega⟩

/-- What one unmap of an owned range leaves. -/
lemma unmap_owned
    (hmapped : ∀ page ∈ m.pages address length, m.Mapped page) :
    (m.unmap address length).2.pageSize = m.pageSize
      ∧ (m.unmap address length).2.host = m.host
      ∧ (∀ page ∉ m.pages address length,
          (m.unmap address length).2.pageState page = m.pageState page)
      ∧ ∀ page ∈ m.pages address length,
          ((m.unmap address length).2.Mapped page ↔ (m.unmap address length).1 = false) := by
  cases hunmap : m.unmap address length with
  | mk report m' =>
      cases report with
      | true =>
          obtain ⟨-, -, hsize, hhost, hother, hzero, -⟩ := unmap_ok hunmap
          exact ⟨hsize, hhost, hother, fun page hp => by simp [Mapped, hzero page hp]⟩
      | false =>
          obtain ⟨hsize, hhost, hstate, -⟩ := unmap_failed hunmap
          refine ⟨hsize, hhost, fun page _ => congrFun hstate page, fun page hp => ?_⟩
          simpa [Mapped, hstate] using hmapped page hp

/-- **A rollback leaves a page exactly when the host refuses one of its calls**, and
it reports that. -/
theorem Owns.unmapAll {ranges : List MappedRange} (h : Owns m ranges) :
    Unmapped ranges m (unmapAll ranges m) := by
  -- from the last range on: what an unmap leaves still owns the others
  induction ranges using List.reverseRecOn generalizing m with
  | nil =>
      refine ⟨rfl, rfl, rfl, rfl, fun _ _ => rfl, ?_⟩
      simp [MappedGuestMemory.unmapAll, mem_rangePages]
  | append_singleton ranges r ih =>
      have hr := h.isRange r (by simp)
      have hmapped : ∀ page ∈ m.pages r.start r.length, m.Mapped page :=
        fun page hp => h.mapped page ⟨r, by simp, hp⟩
      obtain ⟨hanswer, hcalls⟩ := unmap_answer hr hmapped
      obtain ⟨hsize, hhost, hother, hown⟩ := unmap_owned hmapped
      have hapart : ∀ page ∈ m.rangePages ranges, page ∉ m.pages r.start r.length := by
        rintro page ⟨r', hr', hp'⟩ hp
        exact Set.disjoint_left.mp ((List.pairwise_append.mp h.disjoint).2.2 r' hr' r (by simp))
          hp' hp
      have hrest : Owns (m.unmap r.start r.length).2 ranges := by
        refine Owns.congr ⟨fun r' hr' => h.isRange r' (List.mem_append_left _ hr'),
          (List.pairwise_append.mp h.disjoint).1, fun page hp => ?_⟩ hsize
          fun page hp => hother page (hapart page hp)
        exact h.mapped page (by rw [rangePages_append]; exact .inl hp)
      have hlast : MappedGuestMemory.unmapAll [r] m = m.unmap r.start r.length := by
        simp [MappedGuestMemory.unmapAll]
      rw [unmapAll_append, hlast]
      generalize m.unmap r.start r.length = s at hanswer hcalls hsize hhost hother hown hrest ⊢
      obtain ⟨hreport', hcalls', hsize', hhost', hother', hleft'⟩ := ih hrest
      rw [rangePages_congr hsize] at hother' hleft'
      -- the others are given back after the last range, and do not touch it
      have hkept : ∀ page ∈ m.pages r.start r.length,
          ((MappedGuestMemory.unmapAll ranges s.2).2.Mapped page ↔ s.1 = false) := by
        intro page hp
        rw [Mapped, hother' page fun hp' => hapart page hp' hp]
        exact hown page hp
      refine ⟨?_, ?_, hsize'.trans hsize, hhost'.trans hhost, fun page hp => ?_, ?_⟩
      · rw [List.length_append, List.length_singleton, unmapsGranted, ← hanswer, hreport', hhost,
          hcalls, Bool.and_comm]
      · rw [List.length_append, List.length_singleton, afterUnmaps, hcalls', hhost, hcalls]
      · rw [rangePages_append, rangePages_singleton, Set.mem_union, not_or] at hp
        exact (hother' page hp.1).trans (hother page hp.2)
      · rw [rangePages_append, rangePages_singleton, Bool.and_eq_false_iff]
        constructor
        · rintro (hfalse | hfalse)
          · obtain ⟨page, hp, hm⟩ := hleft'.mp hfalse
            exact ⟨page, .inl hp, hm⟩
          · exact ⟨m.pageIndex r.start, .inr hr.first_mem, (hkept _ hr.first_mem).mpr hfalse⟩
        · rintro ⟨page, hp | hp, hm⟩
          · exact .inl (hleft'.mpr ⟨page, hp, hm⟩)
          · exact .inr ((hkept page hp).mp hm)

end MappedGuestMemory

end LibA32Android

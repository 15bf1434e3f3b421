/-
Taking page ranges and giving them back.

The loader and the dependency loader map ranges one after another and, on
failure, unmap what they mapped in the opposite order.  `Acquired m₀ ranges m`
is the state in between: from `m₀` on exactly the pages of `ranges` were mapped
and no other mapped page was touched.

* `SameViewOff P`: outside `P` the same pages are mapped, with the same states
  and bytes; unlike `UnchangedOff` it says nothing of unmapped bytes, which an
  unmap clears;
* `Acquired.map`, `Acquired.keep`, `Acquired.append`: how a transaction grows;
* `Acquired.unmapAll`: with working unmap calls, giving everything back
  restores the view of the memory the transaction started from.
-/
import LibA32Android.Memory.Mapped

namespace LibA32Android

open Foundations

/-- `MappedRange`: a range handed to `map`. -/
structure MappedRange where
  start : UInt32
  length : ℕ
  deriving DecidableEq, Repr

namespace MappedGuestMemory

variable {m m' m'' m₀ : MappedGuestMemory} {P P' : Set ℕ}

/-! ### The same view -/

/-- Outside the pages `P` two memories look the same to a guest: the same pages
are mapped, and mapped pages have the same states and bytes. -/
structure SameViewOff (P : Set ℕ) (m m' : MappedGuestMemory) : Prop where
  pageSize : m'.pageSize = m.pageSize
  host : m'.host = m.host
  mapped : ∀ page ∉ P, (m'.Mapped page ↔ m.Mapped page)
  pageState : ∀ page ∉ P, m.Mapped page → m'.pageState page = m.pageState page
  bytes : ∀ x, x / m.pageSize ∉ P → m.Mapped (x / m.pageSize) →
    m'.reservation x = m.reservation x

/-- Two memories that look the same everywhere. -/
abbrev SameView (m m' : MappedGuestMemory) : Prop := SameViewOff ∅ m m'

lemma UnchangedOff.sameViewOff (h : UnchangedOff P m m') : SameViewOff P m m' where
  pageSize := h.pageSize
  host := h.host
  mapped _ hp := h.mapped_iff hp
  pageState page hp _ := h.pageState page hp
  bytes x hx _ := h.bytes x hx

namespace SameViewOff

lemma refl (P : Set ℕ) (m : MappedGuestMemory) : SameViewOff P m m :=
  (UnchangedOff.refl P m).sameViewOff

lemma mono (h : SameViewOff P m m') (hP : P ⊆ P') : SameViewOff P' m m' where
  pageSize := h.pageSize
  host := h.host
  mapped page hp := h.mapped page fun hp' => hp (hP hp')
  pageState page hp := h.pageState page fun hp' => hp (hP hp')
  bytes x hx := h.bytes x fun hx' => hx (hP hx')

lemma trans (h : SameViewOff P m m') (h' : SameViewOff P m' m'') : SameViewOff P m m'' where
  pageSize := h'.pageSize.trans h.pageSize
  host := h'.host.trans h.host
  mapped page hp := (h'.mapped page hp).trans (h.mapped page hp)
  pageState page hp hm :=
    (h'.pageState page hp ((h.mapped page hp).mpr hm)).trans (h.pageState page hp hm)
  bytes x hx hm := by
    have hx' : x / m'.pageSize ∉ P := by rwa [h.pageSize]
    have hm' : m'.Mapped (x / m'.pageSize) := by
      rw [h.pageSize]
      exact (h.mapped _ hx).mpr hm
    exact (h'.bytes x hx' hm').trans (h.bytes x hx hm)

lemma pages (h : SameViewOff P m m') (address : UInt32) (length : ℕ) :
    m'.pages address length = m.pages address length := by
  rw [MappedGuestMemory.pages, MappedGuestMemory.pages, pageIndex, pageIndex, h.pageSize]

lemma isPageRange (h : SameViewOff P m m') {address : UInt32} {length : ℕ} :
    m'.IsPageRange address length ↔ m.IsPageRange address length := by
  constructor
  · exact fun hr => ⟨hr.pos, h.pageSize ▸ hr.address_dvd, h.pageSize ▸ hr.length_dvd, hr.end_le⟩
  · exact fun hr => ⟨hr.pos, h.pageSize ▸ hr.address_dvd, h.pageSize ▸ hr.length_dvd, hr.end_le⟩

/-- A change of pages that were not mapped keeps every answered read. -/
lemma reads_extend (h : SameViewOff P m m') (hP : ∀ page ∈ P, ¬m.Mapped page) :
    Extends (GuestMemory.reads m) (GuestMemory.reads m') := by
  rintro ⟨a, n⟩ out hq
  obtain ⟨hv, rfl⟩ := read_eq_some.mp hq
  rw [validAccess_iff] at hv
  refine read_eq_some.mpr ⟨?_, ?_⟩
  · rw [validAccess_iff, h.pageSize]
    refine hv.imp_right fun ⟨hend, hall⟩ => ⟨hend, fun x hx hlt => ?_⟩
    obtain ⟨hmapped, hperm⟩ := hall x hx hlt
    have hp : x / m.pageSize ∉ P := fun hp => hP _ hp hmapped
    exact ⟨(h.mapped _ hp).mpr hmapped, by rwa [h.pageState _ hp hmapped]⟩
  · rcases hv with rfl | ⟨-, hall⟩
    · rfl
    · refine window_congr fun x hx hlt => ?_
      have hmapped := (hall x hx hlt).1
      exact (h.bytes x (fun hp => hP _ hp hmapped) hmapped).symm

end SameViewOff

/-! ### Transactions -/

/-- The pages of a list of ranges. -/
def rangePages (m : MappedGuestMemory) (ranges : List MappedRange) : Set ℕ :=
  {page | ∃ r ∈ ranges, page ∈ m.pages r.start r.length}

lemma mem_rangePages {ranges : List MappedRange} {page : ℕ} :
    page ∈ m.rangePages ranges ↔ ∃ r ∈ ranges, page ∈ m.pages r.start r.length := Iff.rfl

lemma rangePages_append (ranges ranges' : List MappedRange) :
    m.rangePages (ranges ++ ranges') = m.rangePages ranges ∪ m.rangePages ranges' := by
  ext page
  simp only [mem_rangePages, List.mem_append, Set.mem_union, or_and_right, exists_or]

lemma rangePages_singleton (r : MappedRange) :
    m.rangePages [r] = m.pages r.start r.length := by
  ext page
  simp [mem_rangePages]

/-- From `m₀` on the pages of `ranges` have been mapped, and the rest looks as
in `m₀`. -/
structure Acquired (m₀ : MappedGuestMemory) (ranges : List MappedRange)
    (m : MappedGuestMemory) : Prop where
  isRange : ∀ r ∈ ranges, m₀.IsPageRange r.start r.length
  free : ∀ page ∈ m₀.rangePages ranges, ¬m₀.Mapped page
  disjoint : ranges.Pairwise fun r r' =>
    Disjoint (m₀.pages r.start r.length) (m₀.pages r'.start r'.length)
  mapped : ∀ page ∈ m₀.rangePages ranges, m.Mapped page
  frame : SameViewOff (m₀.rangePages ranges) m₀ m

namespace Acquired

variable {ranges ranges' : List MappedRange}

lemma nil (m : MappedGuestMemory) : Acquired m [] m where
  isRange _ hr := absurd hr List.not_mem_nil
  free _ hp := by simp [mem_rangePages] at hp
  disjoint := .nil
  mapped _ hp := by simp [mem_rangePages] at hp
  frame := .refl _ _

/-- Pages of the transaction may change as long as they stay mapped. -/
lemma keep (h : Acquired m₀ ranges m) (hframe : UnchangedOff (m₀.rangePages ranges) m m')
    (hmapped : ∀ page ∈ m₀.rangePages ranges, m'.Mapped page) : Acquired m₀ ranges m' where
  isRange := h.isRange
  free := h.free
  disjoint := h.disjoint
  mapped := hmapped
  frame := h.frame.trans hframe.sameViewOff

/-- A failing call keeps the transaction. -/
lemma keep_of_unchanged (h : Acquired m₀ ranges m) (hframe : UnchangedOff ∅ m m') :
    Acquired m₀ ranges m' :=
  h.keep (hframe.mono (Set.empty_subset _)) fun page hp =>
    (hframe.mapped_iff (Set.notMem_empty page)).mpr (h.mapped page hp)

/-- So does a call that leaves the same view. -/
lemma keep_of_sameView (h : Acquired m₀ ranges m) (hview : SameView m m') :
    Acquired m₀ ranges m' where
  isRange := h.isRange
  free := h.free
  disjoint := h.disjoint
  mapped page hp := (hview.mapped page (Set.notMem_empty page)).mpr (h.mapped page hp)
  frame := h.frame.trans (hview.mono (Set.empty_subset _))

/-- Two transactions, one after the other. -/
lemma append (h : Acquired m₀ ranges m) (h' : Acquired m ranges' m') :
    Acquired m₀ (ranges ++ ranges') m' := by
  have hpages : ∀ a n, m.pages a n = m₀.pages a n := h.frame.pages
  have hrange : m.rangePages ranges' = m₀.rangePages ranges' := by
    simp only [rangePages, hpages]
  -- the second transaction found its pages free, and those of the first were mapped
  have hapart : ∀ page ∈ m₀.rangePages ranges', page ∉ m₀.rangePages ranges := fun page hp hp' =>
    h'.free page (hrange ▸ hp) (h.mapped page hp')
  refine ⟨?_, ?_, ?_, ?_, ?_⟩
  · intro r hr
    rcases List.mem_append.mp hr with hr | hr
    · exact h.isRange r hr
    · exact h.frame.isPageRange.mp (h'.isRange r hr)
  · intro page hp
    rw [rangePages_append] at hp
    rcases hp with hp | hp
    · exact h.free page hp
    · rw [← h.frame.mapped page (hapart page hp)]
      exact h'.free page (hrange ▸ hp)
  · rw [List.pairwise_append]
    refine ⟨h.disjoint, by simpa only [hpages] using h'.disjoint, fun r hr r' hr' => ?_⟩
    rw [Set.disjoint_left]
    exact fun page hp hp' => hapart page ⟨r', hr', hp'⟩ ⟨r, hr, hp⟩
  · intro page hp
    rw [rangePages_append] at hp
    by_cases hp' : page ∈ m₀.rangePages ranges'
    · exact h'.mapped page (hrange ▸ hp')
    · rw [h'.frame.mapped page (hrange ▸ hp')]
      exact h.mapped page (hp.resolve_right hp')
  · rw [rangePages_append]
    exact (h.frame.mono Set.subset_union_left).trans
      (h'.frame.mono (hrange ▸ Set.subset_union_right))

/-- A successful `map` is a transaction. -/
lemma of_map {r : MappedRange} {permissions : MemoryPermission}
    (hr : m.IsPageRange r.start r.length)
    (h : m.map r.start r.length permissions = (true, m')) : Acquired m [r] m' := by
  obtain ⟨-, -, hfree, hframe, hstate, -⟩ := map_ok h
  refine ⟨?_, ?_, List.pairwise_singleton _ _, ?_, ?_⟩
  · rintro r' hr'
    rwa [List.mem_singleton.mp hr']
  · rwa [rangePages_singleton]
  · rw [rangePages_singleton]
    intro page hp
    rw [Mapped, hstate page hp]
    exact pageIsMapped_encode _
  · rw [rangePages_singleton]
    exact hframe.sameViewOff

lemma map {r : MappedRange} {permissions : MemoryPermission} (h : Acquired m₀ ranges m)
    (hr : m₀.IsPageRange r.start r.length)
    (hmap : m.map r.start r.length permissions = (true, m')) :
    Acquired m₀ (ranges ++ [r]) m' :=
  h.append (of_map (h.frame.isPageRange.mpr hr) hmap)

/-- Unmapping the last range of a transaction. -/
lemma unmap {r : MappedRange} (h : Acquired m₀ (ranges ++ [r]) m)
    (hunmap : m.unmap r.start r.length = (true, m')) : Acquired m₀ ranges m' := by
  obtain ⟨-, -, hsize, hhost, hother, hzero, -⟩ := unmap_ok hunmap
  have hr : m₀.IsPageRange r.start r.length := h.isRange r (by simp)
  have hframe := unmap_ok_unchangedOff hunmap (h.frame.isPageRange.mpr hr)
  rw [h.frame.pages] at hother hzero hframe
  have hsub : m₀.rangePages ranges ⊆ m₀.rangePages (ranges ++ [r]) := by
    rw [rangePages_append]
    exact Set.subset_union_left
  have hdis : ∀ page ∈ m₀.rangePages ranges, page ∉ m₀.pages r.start r.length := by
    rintro page ⟨r', hr', hp'⟩ hp
    have := (List.pairwise_append.mp h.disjoint).2.2 r' hr' r (by simp)
    exact Set.disjoint_left.mp this hp' hp
  have hsplit : ∀ {page}, page ∉ m₀.rangePages ranges → page ∉ m₀.pages r.start r.length →
      page ∉ m₀.rangePages (ranges ++ [r]) := by
    intro page h1 h2
    rw [rangePages_append, rangePages_singleton]
    exact fun hp => hp.elim h1 h2
  have hlast : ∀ page ∈ m₀.pages r.start r.length, ¬m₀.Mapped page ∧ ¬m'.Mapped page := by
    intro page hp
    refine ⟨h.free page ⟨r, by simp, hp⟩, ?_⟩
    rw [Mapped, hzero page hp]
    simp
  refine ⟨fun r' hr' => h.isRange r' (List.mem_append_left _ hr'), fun page hp =>
    h.free page (hsub hp), (List.pairwise_append.mp h.disjoint).1, fun page hp => ?_,
    ⟨hsize.trans h.frame.pageSize, hhost.trans h.frame.host, fun page hp => ?_,
      fun page hp hm => ?_, fun x hx hm => ?_⟩⟩
  · rw [hframe.mapped_iff (hdis page hp)]
    exact h.mapped page (hsub hp)
  · by_cases hp' : page ∈ m₀.pages r.start r.length
    · exact iff_of_false (hlast page hp').2 (hlast page hp').1
    · exact (hframe.mapped_iff hp').trans (h.frame.mapped page (hsplit hp hp'))
  · have hp' : page ∉ m₀.pages r.start r.length := fun hp' => (hlast page hp').1 hm
    exact (hother page hp').trans (h.frame.pageState page (hsplit hp hp') hm)
  · have hx' : x / m₀.pageSize ∉ m₀.pages r.start r.length := fun hp' => (hlast _ hp').1 hm
    have hb := hframe.bytes x (by rwa [h.frame.pageSize])
    exact hb.trans (h.frame.bytes x (hsplit hx hx') hm)

end Acquired

/-! ### Giving everything back -/

/-- The host calls behind `unmap` succeed. -/
def UnmapCallsSucceed (m : MappedGuestMemory) : Prop :=
  ∀ n, m.host n .unmapMadvise = true ∧ m.host n .unmapMprotect = true

/-- A rollback loop: unmap the ranges, the last one first, and report whether
every call succeeded. -/
def unmapAll (ranges : List MappedRange) (m : MappedGuestMemory) : Bool × MappedGuestMemory :=
  ranges.foldr (fun r s => ((s.2.unmap r.start r.length).1 && s.1,
    (s.2.unmap r.start r.length).2)) (true, m)

lemma unmapAll_append (ranges ranges' : List MappedRange) (m : MappedGuestMemory) :
    unmapAll (ranges ++ ranges') m
      = ((unmapAll ranges (unmapAll ranges' m).2).1 && (unmapAll ranges' m).1,
          (unmapAll ranges (unmapAll ranges' m).2).2) := by
  induction ranges with
  | nil => simp [unmapAll]
  | cons r ranges ih =>
      have hcons : ∀ (l : List MappedRange) (n : MappedGuestMemory), unmapAll (r :: l) n
          = (((unmapAll l n).2.unmap r.start r.length).1 && (unmapAll l n).1,
              ((unmapAll l n).2.unmap r.start r.length).2) := fun _ _ => rfl
      rw [List.cons_append, hcons, ih, hcons, Bool.and_assoc]

/-- **Rollback restores the view**: with working unmap calls, giving back the
ranges of a transaction succeeds and leaves what the guest saw before it. -/
theorem Acquired.unmapAll {ranges : List MappedRange} (h : Acquired m₀ ranges m)
    (hhost : m₀.UnmapCallsSucceed) :
    (unmapAll ranges m).1 = true ∧ SameView m₀ (unmapAll ranges m).2 := by
  -- from the last range on: each unmap leaves a transaction over the others
  induction ranges using List.reverseRecOn generalizing m with
  | nil =>
      refine ⟨rfl, h.frame.mono ?_⟩
      rintro page ⟨r, hr, -⟩
      exact absurd hr List.not_mem_nil
  | append_singleton ranges r ih =>
      have hr : m.IsPageRange r.start r.length :=
        h.frame.isPageRange.mpr (h.isRange r (by simp))
      have hmapped : ∀ page ∈ m.pages r.start r.length, m.Mapped page := by
        intro page hp
        rw [h.frame.pages] at hp
        exact h.mapped page ⟨r, by simp, hp⟩
      obtain ⟨m', hunmap⟩ := unmap_succeeds hr hmapped (by rwa [h.frame.host])
      obtain ⟨hreport, hview⟩ := ih (h.unmap hunmap)
      have hlast : MappedGuestMemory.unmapAll [r] m = (true, m') := by
        simp [MappedGuestMemory.unmapAll, hunmap]
      rw [unmapAll_append, hlast]
      exact ⟨by rw [hreport]; rfl, hview⟩

end MappedGuestMemory

end LibA32Android

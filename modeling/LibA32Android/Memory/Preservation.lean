/-
What the calls of the runtime keep of a memory.

* `Preserves`: mapped pages stay mapped, get no further permissions and can be read as
  before, and the bytes of those that cannot be written stay as they are;
* `WrittenTo.preserves`, `Preserves.of_narrowed`: writes and narrowed permissions do so;
* `Spares`: the stronger relation of a call that touches pages only that were not mapped
  before it, with `Acquired.spares` for what has been mapped and `Spares.unmapAll` for a
  rollback, whatever the host answers;
* `KeptByOperations`: an invariant of the page operations and writes.
-/
import LibA32Android.Memory.HostPages
import LibA32Android.Memory.MemoryProgram
import LibA32Android.Memory.Transaction

namespace LibA32Android

open Foundations

namespace MappedGuestMemory

variable {m m' m'' m₀ : MappedGuestMemory}

/-! ### Preservation -/

/-- Mapped pages stay mapped, with no permission that they did not have and without losing
`Read`, and with the same bytes unless they can be written. -/
structure Preserves (m m' : MappedGuestMemory) : Prop where
  pageSize : m'.pageSize = m.pageSize
  mapped : ∀ page, m.Mapped page → m'.Mapped page
  narrows : ∀ page required, m.Mapped page → m'.Grants required page → m.Grants required page
  readable : ∀ page, m.Grants .read page → m'.Grants .read page
  bytes : ∀ x, m.Mapped (x / m.pageSize) → ¬m.Grants .write (x / m.pageSize) →
    m'.reservation x = m.reservation x

namespace Preserves

lemma refl (m : MappedGuestMemory) : m.Preserves m :=
  ⟨rfl, fun _ hm => hm, fun _ _ _ hgrants => hgrants, fun _ hread => hread, fun _ _ _ => rfl⟩

lemma trans (h : m.Preserves m') (h' : m'.Preserves m'') : m.Preserves m'' where
  pageSize := h'.pageSize.trans h.pageSize
  mapped page hm := h'.mapped page (h.mapped page hm)
  narrows page required hm hgrants :=
    h.narrows page required hm (h'.narrows page required (h.mapped page hm) hgrants)
  readable page hread := h'.readable page (h.readable page hread)
  bytes x hm hwrite := by
    have hm' : m'.Mapped (x / m'.pageSize) := h.pageSize ▸ h.mapped _ hm
    have hwrite' : ¬m'.Grants .write (x / m'.pageSize) :=
      h.pageSize ▸ fun hgrants => hwrite (h.narrows _ _ hm hgrants)
    exact (h'.bytes x hm' hwrite').trans (h.bytes x hm hwrite)

/-- Permissions that only narrow. -/
lemma of_narrowed (hsize : m'.pageSize = m.pageSize) (hbytes : m'.reservation = m.reservation)
    (hmapped : ∀ page, m.Mapped page → m'.Mapped page)
    (hnarrows : ∀ page required, m'.Grants required page → m.Grants required page)
    (hreadable : ∀ page, m.Grants .read page → m'.Grants .read page) : m.Preserves m' :=
  ⟨hsize, hmapped, fun page required _ => hnarrows page required, hreadable,
    fun x _ _ => congrFun hbytes x⟩

/-- A page that stays mapped and cannot be written keeps its bytes readable as they are. -/
lemma not_writable (h : m.Preserves m') {page : ℕ} (hm : m.Mapped page)
    (hwrite : ¬m.Grants .write page) : m'.Mapped page ∧ ¬m'.Grants .write page :=
  ⟨h.mapped page hm, fun hgrants => hwrite (h.narrows page .write hm hgrants)⟩

end Preserves

/-- A span whose pages cannot be written. -/
def ReadOnlySpan (m : MappedGuestMemory) (span : UInt32 × ℕ) : Prop :=
  ∀ x, span.1.toNat ≤ x → x < span.1.toNat + span.2 → ¬m.Grants .write (x / m.pageSize)

instance (m : MappedGuestMemory) (required : MemoryPermission) (page : ℕ) :
    Decidable (m.Grants required page) :=
  inferInstanceAs (Decidable (_ ∧ _))

instance (m : MappedGuestMemory) (span : UInt32 × ℕ) : Decidable (m.ReadOnlySpan span) :=
  decidable_of_iff (∀ i < span.2, ¬m.Grants .write ((span.1.toNat + i) / m.pageSize))
    ⟨fun h x hx hlt => Nat.add_sub_cancel' hx ▸ h (x - span.1.toNat) (by omega),
      fun h i hi => h _ (by omega) (by omega)⟩

/-- What was read from pages that cannot be written is read again. -/
lemma Preserves.reads_eq (h : m.Preserves m') {span : UInt32 × ℕ} (hspan : m.ReadOnlySpan span)
    {out : List UInt8} (hread : GuestMemory.reads m span = some out) :
    GuestMemory.reads m' span = some out := by
  obtain ⟨⟨hend, hgrants⟩, rfl⟩ := read_eq_some_iff_readable.mp hread
  refine read_eq_some_iff_readable.mpr ⟨⟨hend, fun x hx hlt => ?_⟩, ?_⟩
  · rw [h.pageSize]
    exact h.readable _ (hgrants x hx hlt)
  · exact window_congr fun x hx hlt =>
      (h.bytes x (hgrants x hx hlt).1 (hspan x hx hlt)).symm

/-- Writes keep the pages, and reach those that can be written. -/
lemma WrittenTo.preserves (h : m.WrittenTo m') : m.Preserves m' := by
  obtain ⟨bytes, rfl, hbytes⟩ := h
  exact ⟨rfl, fun _ hm => hm, fun _ _ _ hgrants => hgrants, fun _ hread => hread,
    fun x _ hwrite => hbytes x hwrite⟩

/-! ### Calls that spare what is mapped -/

/-- Pages that were mapped have the same states and bytes. -/
structure Spares (m₀ m : MappedGuestMemory) : Prop where
  pageSize : m.pageSize = m₀.pageSize
  pageState : ∀ page, m₀.Mapped page → m.pageState page = m₀.pageState page
  bytes : ∀ x, m₀.Mapped (x / m₀.pageSize) → m.reservation x = m₀.reservation x

/-- Whatever the host answers, `unmap` changes no page outside its range. -/
lemma unmap_unchangedOff {address : UInt32} {length : ℕ} (hr : m.IsPageRange address length) :
    UnchangedOff (m.pages address length) m (m.unmap address length).2 := by
  rcases hunmap : m.unmap address length with ⟨_ | _, m'⟩
  · obtain ⟨hsize, hhost, hstate, hbytes⟩ := unmap_failed hunmap
    refine ⟨hsize, hhost, fun page _ => congrFun hstate page, fun x hx => ?_⟩
    rcases hbytes with hsame | ⟨-, -, -, -, hcleared⟩
    · exact congrFun hsame x
    · rw [hr.mem_pages_iff] at hx
      rw [hcleared, fill_of_outside (by omega)]
  · exact unmap_ok_unchangedOff hunmap hr

/-- What changes outside the pages mapped before spares them. -/
lemma UnchangedOff.spares {P : Set ℕ} (h : UnchangedOff P m m')
    (hfree : ∀ page ∈ P, ¬m.Mapped page) : m.Spares m' :=
  ⟨h.pageSize, fun page hm => h.pageState page fun hp => hfree page hp hm,
    fun x hm => h.bytes x fun hp => hfree _ hp hm⟩

namespace Spares

lemma refl (m : MappedGuestMemory) : m.Spares m := ⟨rfl, fun _ _ => rfl, fun _ _ => rfl⟩

lemma mapped (h : m₀.Spares m) {page : ℕ} (hm : m₀.Mapped page) : m.Mapped page := by
  rw [Mapped, h.pageState page hm]
  exact hm

lemma trans (h : m₀.Spares m) (h' : m.Spares m') : m₀.Spares m' where
  pageSize := h'.pageSize.trans h.pageSize
  pageState page hm := (h'.pageState page (h.mapped hm)).trans (h.pageState page hm)
  bytes x hm := (h'.bytes x (h.pageSize ▸ h.mapped hm)).trans (h.bytes x hm)

lemma preserves (h : m₀.Spares m) : m₀.Preserves m where
  pageSize := h.pageSize
  mapped _ hm := h.mapped hm
  narrows page required hm hgrants := by
    rw [Grants, h.pageState page hm] at hgrants
    exact ⟨hm, hgrants.2⟩
  readable page hread := by
    rw [Grants, h.pageState page hread.1]
    exact ⟨h.mapped hread.1, hread.2⟩
  bytes x hm _ := h.bytes x hm

/-- An `unmap` of pages that were not mapped at the start. -/
lemma unmap (h : m₀.Spares m) {r : MappedRange} (hr : m₀.IsPageRange r.start r.length)
    (hfree : ∀ page ∈ m₀.pages r.start r.length, ¬m₀.Mapped page) :
    m₀.Spares (m.unmap r.start r.length).2 := by
  have hr' : m.IsPageRange r.start r.length :=
    ⟨hr.pos, h.pageSize ▸ hr.address_dvd, h.pageSize ▸ hr.length_dvd, hr.end_le⟩
  have hpages : m.pages r.start r.length = m₀.pages r.start r.length := by
    rw [pages, pages, pageIndex, pageIndex, h.pageSize]
  have hoff := unmap_unchangedOff hr'
  rw [hpages] at hoff
  refine ⟨hoff.pageSize.trans h.pageSize, fun page hm => ?_, fun x hm => ?_⟩
  · exact (hoff.pageState page fun hp => hfree page hp hm).trans (h.pageState page hm)
  · have hx : x / m.pageSize ∉ m₀.pages r.start r.length := h.pageSize ▸ fun hp => hfree _ hp hm
    exact (hoff.bytes x hx).trans (h.bytes x hm)

/-- **A rollback spares what was mapped before the transaction**, whatever the host
answers. -/
lemma unmapAll (h : m₀.Spares m) {ranges : List MappedRange}
    (hrange : ∀ r ∈ ranges, m₀.IsPageRange r.start r.length)
    (hfree : ∀ page ∈ m₀.rangePages ranges, ¬m₀.Mapped page) :
    m₀.Spares (unmapAll ranges m).2 := by
  induction ranges with
  | nil => exact h
  | cons r ranges ih =>
      have htail := ih (fun r' hr' => hrange r' (List.mem_cons_of_mem _ hr'))
        fun page ⟨r', hr', hp⟩ => hfree page ⟨r', List.mem_cons_of_mem _ hr', hp⟩
      exact htail.unmap (hrange r List.mem_cons_self)
        fun page hp => hfree page ⟨r, List.mem_cons_self, hp⟩

end Spares

/-- A transaction spares what was mapped before it. -/
lemma Acquired.spares {ranges : List MappedRange} (h : Acquired m₀ ranges m) : m₀.Spares m :=
  ⟨h.frame.pageSize,
    fun page hm => h.frame.pageState page (fun hp => h.free page hp hm) hm,
    fun x hm => h.frame.bytes x (fun hp => h.free _ hp hm) hm⟩

/-- A `map` of the caller spares what is mapped. -/
lemma map_spares (m : MappedGuestMemory) (address : UInt32) (length : ℕ)
    (permissions : MemoryPermission) : m.Spares (m.map address length permissions).2 := by
  rcases hmap : m.map address length permissions with ⟨_ | _, m'⟩
  · exact (map_failed hmap).spares fun _ hp => absurd hp (Set.notMem_empty _)
  · obtain ⟨-, -, hfree, hoff, -, -⟩ := map_ok hmap
    exact hoff.spares hfree

/-! ### Invariants of the operations -/

/-- What every page operation and every write keeps, whether it succeeds or not. -/
structure KeptByOperations (I : MappedGuestMemory → Prop) : Prop where
  map : ∀ m address length permissions, I m → I (m.map address length permissions).2
  protect : ∀ m address length permissions, I m → I (m.protect address length permissions).2
  unmap : ∀ m address length, I m → I (m.unmap address length).2
  write : ∀ m address input, I m → I (GuestMemory.write m address input).2

lemma KeptByOperations.unmapAll {I : MappedGuestMemory → Prop} (hI : KeptByOperations I)
    (ranges : List MappedRange) (h : I m) : I (unmapAll ranges m).2 := by
  induction ranges with
  | nil => exact h
  | cons r ranges ih => exact hI.unmap _ r.start r.length ih

lemma WrittenTo.hostFollows (h : m.WrittenTo m') (hfollows : m.HostFollows) : m'.HostFollows := by
  obtain ⟨bytes, rfl, -⟩ := h
  exact hfollows.congr rfl rfl

/-- The host pages follow the page states through every operation. -/
lemma hostFollows_kept : KeptByOperations HostFollows where
  map _ address length permissions h := h.setPages _ _ address length permissions
  protect _ address length permissions h := h.setPages _ _ address length permissions
  unmap _ address length h := h.unmap address length
  write m address input h := (WrittenTo.write m address input).hostFollows h

end MappedGuestMemory

end LibA32Android

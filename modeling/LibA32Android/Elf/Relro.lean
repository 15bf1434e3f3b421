/-
Sealing GNU RELRO (`elf/elf32_relro.h`, `elf/hardening/elf32_relro.cpp`).

* `sealElf32GnuRelro`: collect the pages of the descriptors, check all of them, and
  then make the writable ones read-only; a refused `protect` restores the pages changed
  so far, the latest one first;
* `readOnlyOn`: the permissions of pages with some of them made read-only;
* `sealRelroPages_leaves`, `restoreRelroPages_leaves`: what the two loops leave, as such
  a map of permissions;
* `relro_seal`: sealing is exact, never broadens and rolls back.
-/
import LibA32Android.Elf.Loader

namespace LibA32Android

open Foundations

/-- `Elf32RelroOptions`. -/
structure Elf32RelroOptions where
  maxPages : UInt32
  deriving DecidableEq, Repr

/-- `Elf32RelroError`, without `None`. -/
inductive Elf32RelroError where
  | invalidOptions
  | invalidMetadata
  | pageLimitExceeded
  | unmappedPage
  | unreadablePage
  | executablePage
  | protectFailed
  | rollbackFailed
  deriving DecidableEq, Repr

/-- `Elf32RelroSealResult` of a failure, which publishes no sealed pages. -/
structure Elf32RelroFailure where
  error : Elf32RelroError
  primaryError : Elf32RelroError
  failingPage : Option UInt32
  rollbackFailingPage : Option UInt32
  deriving DecidableEq, Repr

/-- `failure` of `elf32_relro.cpp`. -/
def relroFailure (error : Elf32RelroError) (failingPage : Option UInt32) : Elf32RelroFailure where
  error := error
  primaryError := error
  failingPage := failingPage
  rollbackFailingPage := none

/-- `PlannedRelroPage`. -/
structure PlannedRelroPage where
  address : UInt32
  originalPermissions : MemoryPermission
  deriving DecidableEq, Repr

/-! ### Planning -/

/-- One descriptor: its checks, and its pages added to `page_addresses`.  The end of the
mapping is a 64-bit sum. -/
def collectRelroPages (pageSize : ℕ) (options : Elf32RelroOptions) (s : ℕ × List UInt32)
    (relro : Elf32RelroSegment) : Except Elf32RelroFailure (ℕ × List UInt32) := do
  refuse (relro.memorySize = 0 ∨ relro.mappingSize = 0
    ∨ relro.mappingStart.toNat % pageSize ≠ 0 ∨ relro.mappingSize % pageSize ≠ 0)
    (relroFailure .invalidMetadata none)
  let exactStart := relro.guestAddress.toNat
  let exactEnd := exactStart + relro.memorySize.toNat
  let mappingStart := relro.mappingStart.toNat
  let mappingEnd := (mappingStart + relro.mappingSize) % 2 ^ 64
  refuse (exactEnd > 2 ^ 32 ∨ mappingEnd > 2 ^ 32 ∨ exactStart < mappingStart
    ∨ exactEnd > mappingEnd) (relroFailure .invalidMetadata none)
  let pageCount := relro.mappingSize / pageSize
  refuse (pageCount = 0 ∨ s.1 > options.maxPages.toNat
    ∨ pageCount > options.maxPages.toNat - s.1) (relroFailure .pageLimitExceeded none)
  let pages := pageSteps pageSize mappingStart mappingEnd
  refuse (∃ page ∈ pages, page > 0xffffffff) (relroFailure .invalidMetadata none)
  return (s.1 + pageCount, s.2 ++ pages.map UInt32.ofNat)

/-- `std::sort` and `std::unique` of the page addresses. -/
def sortedPages (pageAddresses : List UInt32) : List UInt32 :=
  (pageAddresses.insertionSort (· ≤ ·)).destutter (· ≠ ·)

/-- The check of one page before anything is changed. -/
def planRelroPage (memory : MappedGuestMemory) (page : UInt32) :
    Except Elf32RelroFailure PlannedRelroPage := do
  refuse (memory.isMapped page = false) (relroFailure .unmappedPage page)
  let permissions := memory.permissions page
  refuse (hasPermission permissions .read = false) (relroFailure .unreadablePage page)
  refuse (hasPermission permissions .execute = true) (relroFailure .executablePage page)
  return { address := page, originalPermissions := permissions }

/-- Everything `seal_elf32_gnu_relro` decides before the first change, for a list of
descriptors that is not empty. -/
def planRelroPages (memory : MappedGuestMemory) (relroSegments : List Elf32RelroSegment)
    (options : Elf32RelroOptions) : Except Elf32RelroFailure (List PlannedRelroPage) := do
  refuse (options.maxPages = 0) (relroFailure .invalidOptions none)
  refuse (memory.pageSize = 0) (relroFailure .invalidMetadata none)
  let collected ← relroSegments.foldlM (collectRelroPages memory.pageSize options) (0, [])
  (sortedPages collected.2).mapM (planRelroPage memory)

/-! ### Sealing -/

namespace MappedGuestMemory

/-- The rollback over the changed pages, the latest one first. -/
def restoreRelroPages (failingPage : UInt32) :
    List PlannedRelroPage → MappedGuestMemory → Except Elf32RelroFailure Unit × MappedGuestMemory
  | [], m => (.ok (), m)
  | prior :: changed, m =>
    let failure : Elf32RelroFailure :=
      { error := .rollbackFailed
        primaryError := .protectFailed
        failingPage := failingPage
        rollbackFailingPage := prior.address }
    match m.protect prior.address m.pageSize prior.originalPermissions with
    | (false, m) => (.error failure, m)
    | (true, m) =>
      if m.permissions prior.address ≠ prior.originalPermissions then (.error failure, m)
      else restoreRelroPages failingPage changed m

/-- The loop over the planned pages; `changed` holds the pages made read-only, the latest
one first. -/
def sealRelroPages : List PlannedRelroPage → List PlannedRelroPage → MappedGuestMemory →
    Except Elf32RelroFailure Unit × MappedGuestMemory
  | _, [], m => (.ok (), m)
  | changed, page :: pages, m =>
    if hasPermission page.originalPermissions .write = false then sealRelroPages changed pages m
    else
      match m.protect page.address m.pageSize .read with
      | (true, m) => sealRelroPages (page :: changed) pages m
      | (false, m) =>
        match restoreRelroPages page.address changed m with
        | (.error failure, m) => (.error failure, m)
        | (.ok (), m) => (.error (relroFailure .protectFailed page.address), m)

end MappedGuestMemory

/-- `seal_elf32_gnu_relro`: the number of sealed pages, and the memory left. -/
def sealElf32GnuRelro (memory : MappedGuestMemory) (load : Elf32LoadResult)
    (options : Elf32RelroOptions) : Except Elf32RelroFailure UInt32 × MappedGuestMemory :=
  if load.relroSegments.isEmpty then (.ok 0, memory)
  else
    match planRelroPages memory load.relroSegments options with
    | .error failure => (.error failure, memory)
    | .ok pages =>
      match memory.sealRelroPages [] pages with
      | (.error failure, m) => (.error failure, m)
      | (.ok (), m) => (.ok (UInt32.ofNat pages.length), m)

/-! ### Maps of permissions -/

/-- The permissions of pages with the listed ones made read-only. -/
def readOnlyOn (before : ℕ → Option MemoryPermission) (indices : List ℕ) :
    ℕ → Option MemoryPermission :=
  fun page => if page ∈ indices then some .read else before page

section ReadOnlyOn

variable {before : ℕ → Option MemoryPermission} {indices : List ℕ} {index : ℕ}

lemma readOnlyOn_nil : readOnlyOn before [] = before :=
  funext fun _ => if_neg List.not_mem_nil

lemma readOnlyOn_of_mem (h : index ∈ indices) : readOnlyOn before indices index = some .read :=
  if_pos h

lemma readOnlyOn_of_notMem (h : index ∉ indices) :
    readOnlyOn before indices index = before index :=
  if_neg h

/-- One more page is made read-only. -/
lemma readOnlyOn_cons : readOnlyOn before (index :: indices)
    = Function.update (readOnlyOn before indices) index (some .read) := by
  funext page
  rcases eq_or_ne page index with rfl | hne
  · rw [Function.update_self, readOnlyOn_of_mem List.mem_cons_self]
  · rw [Function.update_of_ne hne, readOnlyOn, readOnlyOn]
    simp only [List.mem_cons, hne, false_or]

/-- The latest page is given back what it had. -/
lemma update_readOnlyOn (h : index ∉ indices) :
    Function.update (readOnlyOn before (index :: indices)) index (before index)
      = readOnlyOn before indices := by
  have hsame : before index = readOnlyOn before indices index := (readOnlyOn_of_notMem h).symm
  rw [readOnlyOn_cons, Function.update_idem, hsame, Function.update_eq_self]

end ReadOnlyOn

namespace MappedGuestMemory

/-- Between two memories only permissions differ, and the second has the given ones. -/
structure Repermitted (m m' : MappedGuestMemory) (permissions : ℕ → Option MemoryPermission) :
    Prop where
  pageSize : m'.pageSize = m.pageSize
  host : m'.host = m.host
  reservation : m'.reservation = m.reservation
  permissions : m'.mappedPermissions = permissions

variable {m m' m₀ : MappedGuestMemory} {permissions permissions' : ℕ → Option MemoryPermission}

lemma Repermitted.refl (m : MappedGuestMemory) : Repermitted m m m.mappedPermissions :=
  ⟨rfl, rfl, rfl, rfl⟩

lemma Repermitted.trans (h : Repermitted m₀ m permissions) (h' : Repermitted m m' permissions') :
    Repermitted m₀ m' permissions' :=
  ⟨h'.pageSize.trans h.pageSize, h'.host.trans h.host, h'.reservation.trans h.reservation,
    h'.permissions⟩

/-- A single page is a range of one page. -/
lemma pages_page (m : MappedGuestMemory) (address : UInt32) :
    m.pages address m.pageSize = {m.pageIndex address} := by
  ext page
  rw [mem_pages, Nat.div_self m.pageSize_pos, Set.mem_singleton_iff]
  omega

lemma isPageRange_page {address : UInt32} (hdvd : m.pageSize ∣ address.toNat) :
    m.IsPageRange address m.pageSize := by
  refine ⟨m.pageSize_pos, hdvd, dvd_rfl, ?_⟩
  have hlt := address.toNat_lt
  obtain ⟨k, hk⟩ := hdvd
  obtain ⟨count, hcount⟩ := m.pageSize_dvd
  rw [hk, hcount] at hlt
  calc address.toNat + m.pageSize = m.pageSize * (k + 1) := by rw [hk, Nat.mul_add, Nat.mul_one]
    _ ≤ m.pageSize * count := Nat.mul_le_mul_left _ (Nat.lt_of_mul_lt_mul_left hlt)
    _ = 2 ^ 32 := hcount.symm

/-- A single page is protected. -/
lemma protect_page {address : UInt32} {given : MemoryPermission}
    (h : m.protect address m.pageSize given = (true, m')) :
    Repermitted m m'
      (Function.update m.mappedPermissions (m.pageIndex address) (some given)) := by
  obtain ⟨-, hvalid, -, hoff, hstate, hbytes⟩ := protect_ok h
  rw [pages_page] at hoff hstate
  refine ⟨hoff.pageSize, hoff.host, hbytes, funext fun page => ?_⟩
  rcases eq_or_ne page (m.pageIndex address) with rfl | hne
  · rw [Function.update_self, mappedPermissions_encode hvalid (hstate _ rfl)]
  · rw [Function.update_of_ne hne, hoff.mappedPermissions hne]

/-- A refused `protect` changes no permission. -/
lemma protect_page_failed {address : UInt32} {length : ℕ} {given : MemoryPermission}
    (h : m.protect address length given = (false, m')) :
    Repermitted m m' m.mappedPermissions := by
  have hoff := protect_failed h
  exact ⟨hoff.pageSize, hoff.host, funext fun x => hoff.bytes x (Set.notMem_empty _),
    funext fun page => hoff.mappedPermissions (Set.notMem_empty _)⟩

/-! ### The two loops -/

/-- The page indices of planned pages. -/
def indicesOf (m : MappedGuestMemory) (pages : List PlannedRelroPage) : List ℕ :=
  pages.map fun page => m.pageIndex page.address

/-- A page had the permissions it was planned with. -/
def Recorded (m : MappedGuestMemory) (page : PlannedRelroPage) : Prop :=
  m.mappedPermissions (m.pageIndex page.address) = some page.originalPermissions

/-- The memory `m₀` with some of the pages made read-only. -/
def SealedOn (m₀ : MappedGuestMemory) (pages : List PlannedRelroPage) (m : MappedGuestMemory) :
    Prop :=
  Repermitted m₀ m (readOnlyOn m₀.mappedPermissions (m₀.indicesOf pages))

lemma SealedOn.nil_iff : m₀.SealedOn [] m ↔ Repermitted m₀ m m₀.mappedPermissions := by
  rw [SealedOn, indicesOf, List.map_nil, readOnlyOn_nil]

/-- One more page is sealed. -/
lemma SealedOn.cons {page : PlannedRelroPage} {changed : List PlannedRelroPage}
    (h : m₀.SealedOn changed m) (hprotect : m.protect page.address m.pageSize .read = (true, m')) :
    m₀.SealedOn (page :: changed) m' := by
  have hstep := protect_page hprotect
  rw [pageIndex, h.pageSize, h.permissions, ← readOnlyOn_cons] at hstep
  exact h.trans hstep

/-- The latest sealed page is restored. -/
lemma SealedOn.tail {page : PlannedRelroPage} {changed : List PlannedRelroPage}
    (h : m₀.SealedOn (page :: changed) m) (hrecorded : m₀.Recorded page)
    (hnew : m₀.pageIndex page.address ∉ m₀.indicesOf changed)
    (hprotect : m.protect page.address m.pageSize page.originalPermissions = (true, m')) :
    m₀.SealedOn changed m' := by
  have hstep := protect_page hprotect
  rw [pageIndex, h.pageSize, h.permissions, ← hrecorded] at hstep
  rw [SealedOn, ← update_readOnlyOn hnew]
  exact h.trans hstep

/-- **The rollback**: it ends with every page restored, or stops with some pages still
sealed. -/
lemma restoreRelroPages_leaves (failingPage : UInt32) {changed : List PlannedRelroPage}
    (h : m₀.SealedOn changed m) (hnodup : (m₀.indicesOf changed).Nodup)
    (hrecorded : ∀ page ∈ changed, m₀.Recorded page) :
    Leaves (fun _ m' => m₀.SealedOn [] m')
      (fun failure m' => failure.error = .rollbackFailed
        ∧ ∃ left, (∀ page ∈ left, page ∈ changed) ∧ m₀.SealedOn left m')
      (restoreRelroPages failingPage changed m) := by
  induction changed generalizing m with
  | nil => exact h
  | cons prior changed ih =>
      rw [restoreRelroPages]
      rcases hprotect : m.protect prior.address m.pageSize prior.originalPermissions with
        ⟨_ | _, m'⟩
      · have hstep := protect_page_failed hprotect
        rw [h.permissions] at hstep
        exact ⟨rfl, prior :: changed, fun _ hpage => hpage, h.trans hstep⟩
      · obtain ⟨hnew, hnodup⟩ := List.nodup_cons.mp hnodup
        have htail := h.tail (hrecorded prior List.mem_cons_self) hnew hprotect
        have hpermissions : m'.permissions prior.address = prior.originalPermissions := by
          have hstep := protect_page hprotect
          have hindex : m'.pageIndex prior.address = m.pageIndex prior.address := by
            rw [pageIndex, hstep.pageSize, pageIndex]
          rw [permissions_eq, hstep.permissions, hindex, Function.update_self, Option.getD_some]
        dsimp only
        rw [if_neg (not_not.mpr hpermissions)]
        refine (ih htail hnodup fun page hpage =>
          hrecorded page (List.mem_cons_of_mem _ hpage)).mono (fun _ _ h => h) ?_
        rintro failure m'' ⟨herror, left, hleft, hsealed⟩
        exact ⟨herror, left, fun page hpage => List.mem_cons_of_mem _ (hleft page hpage), hsealed⟩

/-- A page that `protect` refuses is as it was, and so are the changed ones unless the
rollback fails too. -/
lemma restore_after_refused {changed : List PlannedRelroPage} {address : UInt32}
    (h : m₀.SealedOn changed m) (hnodup : (m₀.indicesOf changed).Nodup)
    (hrecorded : ∀ page ∈ changed, m₀.Recorded page)
    (hprotect : m.protect address m.pageSize .read = (false, m')) :
    Leaves (fun _ m'' => m₀.SealedOn [] m'')
      (fun failure m'' => failure.error = .rollbackFailed
        ∧ ∃ left, (∀ page ∈ left, page ∈ changed) ∧ m₀.SealedOn left m'')
      (restoreRelroPages address changed m') := by
  have hstep := protect_page_failed hprotect
  rw [h.permissions] at hstep
  exact restoreRelroPages_leaves address (h.trans hstep) hnodup hrecorded

/-- **The loop**: it ends with the writable pages sealed, or restores every page, or stops
in the rollback with some pages still sealed. -/
lemma sealRelroPages_leaves {changed pages : List PlannedRelroPage} (h : m₀.SealedOn changed m)
    (hnodup : (m₀.indicesOf (changed ++ pages)).Nodup)
    (hrecorded : ∀ page ∈ changed ++ pages, m₀.Recorded page) :
    Leaves
      (fun _ m' => ∃ done, (∀ page, page ∈ done ↔ page ∈ changed
          ∨ page ∈ pages ∧ hasPermission page.originalPermissions .write = true)
        ∧ m₀.SealedOn done m')
      (fun failure m' => failure.error = .protectFailed ∧ m₀.SealedOn [] m'
        ∨ failure.error = .rollbackFailed
          ∧ ∃ left, (∀ page ∈ left, page ∈ changed ++ pages) ∧ m₀.SealedOn left m')
      (sealRelroPages changed pages m) := by
  induction pages generalizing changed m with
  | nil => exact ⟨changed, fun page => by simp, h⟩
  | cons page pages ih =>
      have hperm : (changed ++ page :: pages).Perm (page :: changed ++ pages) := List.perm_middle
      have hnodup' : (m₀.indicesOf (page :: changed ++ pages)).Nodup :=
        (hperm.map _).nodup_iff.mp hnodup
      have hrecorded' (page' : PlannedRelroPage) (hpage : page' ∈ page :: changed ++ pages) :
          m₀.Recorded page' := hrecorded page' (hperm.mem_iff.mpr hpage)
      rw [sealRelroPages]
      by_cases hwrite : hasPermission page.originalPermissions .write = false
      · rw [if_pos hwrite]
        refine (ih h (List.nodup_cons.mp hnodup').2 fun page' hpage =>
          hrecorded' page' (List.mem_cons_of_mem _ hpage)).mono ?_ ?_
        · rintro - m' ⟨done, hdone, hsealed⟩
          refine ⟨done, fun page' => ?_, hsealed⟩
          rw [hdone, List.mem_cons]
          refine or_congr_right ⟨fun hpage => ⟨Or.inr hpage.1, hpage.2⟩, ?_⟩
          rintro ⟨rfl | hpage, hwritable⟩
          · rw [hwrite] at hwritable
            cases hwritable
          · exact ⟨hpage, hwritable⟩
        · refine fun failure m' hfailure => hfailure.imp_right ?_
          rintro ⟨herror, left, hleft, hsealed⟩
          exact ⟨herror, left, fun page' hpage =>
            hperm.mem_iff.mpr (List.mem_cons_of_mem _ (hleft page' hpage)), hsealed⟩
      · rw [if_neg hwrite]
        rcases hprotect : m.protect page.address m.pageSize .read with ⟨_ | _, m'⟩
        · have hchanged : (m₀.indicesOf changed).Nodup := by
            rw [indicesOf, List.map_append] at hnodup
            exact (List.nodup_append.mp hnodup).1
          have hrestore := restore_after_refused h hchanged
            (fun page' hpage => hrecorded page' (List.mem_append_left _ hpage)) hprotect
          dsimp only
          rcases hrun : restoreRelroPages page.address changed m' with ⟨failure | _, m''⟩
          · rw [hrun] at hrestore
            obtain ⟨herror, left, hleft, hsealed⟩ := hrestore
            exact Or.inr ⟨herror, left, fun page' hpage =>
              List.mem_append_left _ (hleft page' hpage), hsealed⟩
          · rw [hrun] at hrestore
            exact Or.inl ⟨rfl, hrestore⟩
        · refine (ih (h.cons hprotect) hnodup' hrecorded').mono ?_ ?_
          · rintro - m'' ⟨done, hdone, hsealed⟩
            refine ⟨done, fun page' => ?_, hsealed⟩
            rw [hdone, List.mem_cons, List.mem_cons]
            rw [Bool.not_eq_false] at hwrite
            constructor
            · rintro ((rfl | hpage) | ⟨hpage, hwritable⟩)
              · exact Or.inr ⟨Or.inl rfl, hwrite⟩
              · exact Or.inl hpage
              · exact Or.inr ⟨Or.inr hpage, hwritable⟩
            · rintro (hpage | ⟨rfl | hpage, hwritable⟩)
              · exact Or.inl (Or.inr hpage)
              · exact Or.inl (Or.inl rfl)
              · exact Or.inr ⟨hpage, hwritable⟩
          · refine fun failure m'' hfailure => hfailure.imp_right ?_
            rintro ⟨herror, left, hleft, hsealed⟩
            exact ⟨herror, left, fun page' hpage => hperm.mem_iff.mpr (hleft page' hpage),
              hsealed⟩

/-- Pages that are not writable are left alone. -/
lemma sealRelroPages_of_unwritable {changed pages : List PlannedRelroPage}
    (h : ∀ page ∈ pages, hasPermission page.originalPermissions .write = false) :
    sealRelroPages changed pages m = (.ok (), m) := by
  induction pages with
  | nil => rfl
  | cons page pages ih =>
      rw [sealRelroPages, if_pos (h page List.mem_cons_self)]
      exact ih fun page' hpage => h page' (List.mem_cons_of_mem _ hpage)

/-! ### What planning finds -/

/-- The pages of the mapping ranges of descriptors. -/
def relroPages (m : MappedGuestMemory) (relroSegments : List Elf32RelroSegment) : Set ℕ :=
  {page | ∃ relro ∈ relroSegments, page ∈ m.pages relro.mappingStart relro.mappingSize}

/-- The addresses that a page loop over a range collects. -/
lemma IsPageRange.mem_steps_iff {address x : UInt32} {length : ℕ}
    (h : m.IsPageRange address length) :
    x ∈ (pageSteps m.pageSize address.toNat (address.toNat + length)).map UInt32.ofNat
      ↔ m.pageSize ∣ x.toNat ∧ m.pageIndex x ∈ m.pages address length := by
  have hend := h.end_le
  rw [List.mem_map, pageIndex, h.mem_pages_iff]
  constructor
  · rintro ⟨page, hpage, rfl⟩
    obtain ⟨i, rfl, hlt⟩ := (mem_pageSteps m.pageSize_pos).mp hpage
    rw [UInt32.toNat_ofNat_of_lt' (by rw [UInt32.size]; omega)]
    exact ⟨Nat.dvd_add h.address_dvd (Nat.dvd_mul_left _ _), Nat.le_add_right _ _, hlt⟩
  · rintro ⟨hdvd, hle, hlt⟩
    obtain ⟨i, hi⟩ := Nat.dvd_sub hdvd h.address_dvd
    refine ⟨x.toNat, (mem_pageSteps m.pageSize_pos).mpr ⟨i, ?_, hlt⟩, UInt32.ofNat_toNat⟩
    rw [Nat.mul_comm i]
    omega

lemma IsPageRange.length_steps {address : UInt32} {length : ℕ} (h : m.IsPageRange address length) :
    (pageSteps m.pageSize address.toNat (address.toNat + length)).length
      = length / m.pageSize := by
  have hpos := m.pageSize_pos
  obtain ⟨n, rfl⟩ := h.length_dvd
  rw [pageSteps, List.length_map, List.length_range, Nat.add_sub_cancel_left,
    Nat.mul_div_cancel_left n hpos, Nat.mul_add_div hpos,
    Nat.div_eq_of_lt (Nat.sub_one_lt hpos.ne'), Nat.add_zero]

/-- A descriptor that passes the checks has a page range, and the pages counted stay within
the limit. -/
lemma collectRelroPages_ok {options : Elf32RelroOptions} {s s' : ℕ × List UInt32}
    {relro : Elf32RelroSegment} (h : collectRelroPages m.pageSize options s relro = .ok s') :
    m.IsPageRange relro.mappingStart relro.mappingSize
      ∧ s' = (s.1 + relro.mappingSize / m.pageSize,
          s.2 ++ (pageSteps m.pageSize relro.mappingStart.toNat
            (relro.mappingStart.toNat + relro.mappingSize)).map UInt32.ofNat)
      ∧ s'.1 ≤ options.maxPages.toNat := by
  simp only [collectRelroPages, refuse_bind_ok_iff, not_or, not_not, not_lt] at h
  obtain ⟨⟨-, hsize, hstart, hlength⟩, ⟨hexact, hspace, hbelow, hinside⟩,
    ⟨-, hdeclared, hlimit⟩, -, h⟩ := h
  have hpages := options.maxPages.toNat_lt
  have hle : m.pageSize ≤ 2 ^ 32 := Nat.le_of_dvd (by norm_num) m.pageSize_dvd
  have haddress := relro.mappingStart.toNat_lt
  -- the limit bounds the mapping, so its end can only wrap to below its start
  have hsmall : relro.mappingSize < 2 ^ 64 := by
    calc relro.mappingSize
        = m.pageSize * (relro.mappingSize / m.pageSize) :=
          (Nat.mul_div_cancel' (Nat.dvd_of_mod_eq_zero hlength)).symm
      _ ≤ 2 ^ 32 * (relro.mappingSize / m.pageSize) := Nat.mul_le_mul_right _ hle
      _ < 2 ^ 64 := by omega
  have hwrap : (relro.mappingStart.toNat + relro.mappingSize) % 2 ^ 64
      = relro.mappingStart.toNat + relro.mappingSize := by omega
  rw [hwrap] at hspace h
  cases h
  exact ⟨⟨Nat.pos_of_ne_zero hsize, Nat.dvd_of_mod_eq_zero hstart,
    Nat.dvd_of_mod_eq_zero hlength, hspace⟩, rfl, by dsimp only; omega⟩

/-- What the loop over the descriptors has collected. -/
structure Collected (m : MappedGuestMemory) (options : Elf32RelroOptions)
    (done : List Elf32RelroSegment) (s : ℕ × List UInt32) : Prop where
  ranges : ∀ relro ∈ done, m.IsPageRange relro.mappingStart relro.mappingSize
  mem_iff : ∀ x, x ∈ s.2 ↔ m.pageSize ∣ x.toNat ∧ m.pageIndex x ∈ m.relroPages done
  length_eq : s.2.length = s.1
  le_max : s.1 ≤ options.maxPages.toNat

lemma collected_of_foldlM {options : Elf32RelroOptions} {relroSegments : List Elf32RelroSegment}
    {s : ℕ × List UInt32}
    (h : relroSegments.foldlM (collectRelroPages m.pageSize options) (0, []) = .ok s) :
    m.Collected options relroSegments s := by
  refine foldlM_ok_induction (m.Collected options) ?_ relroSegments [] (0, []) s ?_ h
  · intro done s relro s' hdone hstep
    obtain ⟨hrange, rfl, hmax⟩ := collectRelroPages_ok hstep
    refine ⟨fun relro' hrelro => ?_, fun x => ?_, ?_, hmax⟩
    · rcases List.mem_append.mp hrelro with hrelro | hrelro
      · exact hdone.ranges relro' hrelro
      · rwa [List.mem_singleton.mp hrelro]
    · rw [List.mem_append, hdone.mem_iff, hrange.mem_steps_iff, ← and_or_left]
      refine and_congr_right fun _ => ?_
      simp only [relroPages, Set.mem_ofPred_eq, List.mem_append, List.mem_singleton, or_and_right,
        exists_or, exists_eq_left]
    · rw [List.length_append, List.length_map, hdone.length_eq, hrange.length_steps]
  · exact ⟨fun _ h => absurd h List.not_mem_nil, fun x => by simp [relroPages], rfl, Nat.zero_le _⟩

end MappedGuestMemory

/-- Sorting and removing neighbours that are equal removes every duplicate. -/
lemma sortedPages_eq (pageAddresses : List UInt32) :
    sortedPages pageAddresses = (pageAddresses.insertionSort (· ≤ ·)).dedup :=
  (List.pairwise_insertionSort _ _).destutter_eq_dedup

lemma mem_sortedPages {pageAddresses : List UInt32} {x : UInt32} :
    x ∈ sortedPages pageAddresses ↔ x ∈ pageAddresses := by
  rw [sortedPages_eq, List.mem_dedup, List.mem_insertionSort]

lemma nodup_sortedPages (pageAddresses : List UInt32) : (sortedPages pageAddresses).Nodup := by
  rw [sortedPages_eq]
  exact List.nodup_dedup _

lemma length_sortedPages_le (pageAddresses : List UInt32) :
    (sortedPages pageAddresses).length ≤ pageAddresses.length :=
  (List.destutter_sublist _ _).length_le.trans (List.length_insertionSort _ _).le

namespace MappedGuestMemory

variable {m m' : MappedGuestMemory} {options : Elf32RelroOptions}
  {relroSegments : List Elf32RelroSegment} {pages : List PlannedRelroPage}

/-- A page that the checks accept. -/
structure Sealable (m : MappedGuestMemory) (page : UInt32) : Prop where
  mapped : m.isMapped page = true
  readable : hasPermission (m.permissions page) .read = true
  not_executable : hasPermission (m.permissions page) .execute = false

/-- A page with its permissions. -/
def planned (m : MappedGuestMemory) (page : UInt32) : PlannedRelroPage :=
  ⟨page, m.permissions page⟩

lemma planRelroPage_ok_iff {page : UInt32} {p : PlannedRelroPage} :
    planRelroPage m page = .ok p ↔ m.Sealable page ∧ p = m.planned page := by
  simp only [planRelroPage, refuse_bind_ok_iff, Bool.not_eq_false, Bool.not_eq_true]
  constructor
  · rintro ⟨hmapped, hread, hexecute, h⟩
    cases h
    exact ⟨⟨hmapped, hread, hexecute⟩, rfl⟩
  · rintro ⟨⟨hmapped, hread, hexecute⟩, rfl⟩
    exact ⟨hmapped, hread, hexecute, rfl⟩

lemma planRelroPages_ok_iff : planRelroPages m relroSegments options = .ok pages
    ↔ options.maxPages ≠ 0
      ∧ ∃ s, relroSegments.foldlM (collectRelroPages m.pageSize options) (0, []) = .ok s
        ∧ (∀ page ∈ sortedPages s.2, m.Sealable page)
        ∧ pages = (sortedPages s.2).map m.planned := by
  have hpos := m.pageSize_pos
  rw [planRelroPages, refuse_bind_ok_iff, refuse_bind_ok_iff, bind_ok_iff]
  simp only [mapM_ok_iff (fun _ _ => planRelroPage_ok_iff), hpos.ne', not_false_eq_true, true_and]

/-- What is known of the planned pages. -/
structure PlannedPages (m : MappedGuestMemory) (relroSegments : List Elf32RelroSegment)
    (pages : List PlannedRelroPage) : Prop where
  address_dvd : ∀ page ∈ pages, m.pageSize ∣ page.address.toNat
  recorded : ∀ page ∈ pages, m.Recorded page
  readable : ∀ page ∈ pages, hasPermission page.originalPermissions .read = true
  not_executable : ∀ page ∈ pages, hasPermission page.originalPermissions .execute = false
  nodup : (m.indicesOf pages).Nodup
  mem_iff : ∀ index, index ∈ m.indicesOf pages ↔ index ∈ m.relroPages relroSegments
  length_lt : pages.length < 2 ^ 32

lemma recorded_planned {page : UInt32} (h : m.Sealable page) : m.Recorded (m.planned page) := by
  have hmapped := h.mapped
  rw [isMapped_eq, Option.isSome_iff_exists] at hmapped
  obtain ⟨permissions, hpermissions⟩ := hmapped
  rw [Recorded, planned, permissions_eq, hpermissions]
  rfl

lemma plannedPages_of_ok (h : planRelroPages m relroSegments options = .ok pages) :
    m.PlannedPages relroSegments pages := by
  obtain ⟨-, s, hs, hsealable, rfl⟩ := planRelroPages_ok_iff.mp h
  have hcollected := collected_of_foldlM hs
  have hindices : m.indicesOf ((sortedPages s.2).map m.planned)
      = (sortedPages s.2).map m.pageIndex := by
    rw [indicesOf, List.map_map]
    rfl
  refine ⟨?_, ?_, ?_, ?_, ?_, fun index => ?_, ?_⟩
  · intro page hpage
    obtain ⟨x, hx, rfl⟩ := List.mem_map.mp hpage
    exact ((hcollected.mem_iff x).mp (mem_sortedPages.mp hx)).1
  · intro page hpage
    obtain ⟨x, hx, rfl⟩ := List.mem_map.mp hpage
    exact recorded_planned (hsealable x hx)
  · intro page hpage
    obtain ⟨x, hx, rfl⟩ := List.mem_map.mp hpage
    exact (hsealable x hx).readable
  · intro page hpage
    obtain ⟨x, hx, rfl⟩ := List.mem_map.mp hpage
    exact (hsealable x hx).not_executable
  · rw [hindices]
    refine (nodup_sortedPages s.2).map_on fun x hx y hy heq => ?_
    have hx' := ((hcollected.mem_iff x).mp (mem_sortedPages.mp hx)).1
    have hy' := ((hcollected.mem_iff y).mp (mem_sortedPages.mp hy)).1
    exact UInt32.toNat_inj.mp ((Nat.div_left_inj hx' hy').mp heq)
  · rw [hindices, List.mem_map]
    constructor
    · rintro ⟨x, hx, rfl⟩
      exact ((hcollected.mem_iff x).mp (mem_sortedPages.mp hx)).2
    · intro hindex
      obtain ⟨relro, hrelro, hpage⟩ := hindex
      have hlt := (hcollected.ranges relro hrelro).page_lt hpage
      have hpos := m.pageSize_pos
      have hx : (UInt32.ofNat (index * m.pageSize)).toNat = index * m.pageSize := by
        refine UInt32.toNat_ofNat_of_lt' ?_
        rw [UInt32.size]
        rw [Nat.add_one_mul] at hlt
        omega
      have hpageIndex : m.pageIndex (UInt32.ofNat (index * m.pageSize)) = index := by
        rw [pageIndex, hx, Nat.mul_div_cancel index hpos]
      refine ⟨UInt32.ofNat (index * m.pageSize),
        mem_sortedPages.mpr ((hcollected.mem_iff _).mpr ⟨?_, ?_⟩), hpageIndex⟩
      · rw [hx]
        exact Nat.dvd_mul_left _ _
      · rw [hpageIndex]
        exact ⟨relro, hrelro, hpage⟩
  · rw [List.length_map]
    have h1 := length_sortedPages_le s.2
    have h2 := hcollected.length_eq
    have h3 := hcollected.le_max
    have h4 := options.maxPages.toNat_lt
    omega

/-! ### Sealing -/

lemma hasPermission_iff {permissions required : MemoryPermission} :
    hasPermission permissions required = true ↔ permissions.raw &&& required.raw ≠ 0 := by
  rw [hasPermission, bne_iff_ne]
  exact not_congr ⟨fun h => congrArg MemoryPermission.raw h, fun h => congrArg MemoryPermission.mk h⟩

/-- `Read` is part of any readable permissions. -/
lemma hasPermission_of_read {permissions required : MemoryPermission}
    (hread : hasPermission permissions .read = true)
    (h : hasPermission .read required = true) : hasPermission permissions required = true := by
  rw [hasPermission_iff] at hread h ⊢
  have hbit : MemoryPermission.read.raw &&& required.raw = MemoryPermission.read.raw := by
    obtain ⟨⟨bits⟩⟩ := required
    revert bits
    decide +kernel
  intro hnone
  rw [← hbit, UInt8.and_comm _ required.raw, ← UInt8.and_assoc, hnone, UInt8.zero_and] at hread
  exact hread rfl

/-- A page that is readable and neither writable nor executable is `Read`. -/
lemma decodePermissions_eq_read {state : UInt8}
    (hread : hasPermission (decodePermissions state) .read = true)
    (hwrite : hasPermission (decodePermissions state) .write = false)
    (hexecute : hasPermission (decodePermissions state) .execute = false) :
    decodePermissions state = .read := by
  obtain ⟨bits⟩ := state
  revert bits
  decide +kernel

lemma Recorded.eq_read {page : PlannedRelroPage} (h : m.Recorded page)
    (hread : hasPermission page.originalPermissions .read = true)
    (hwrite : hasPermission page.originalPermissions .write = false)
    (hexecute : hasPermission page.originalPermissions .execute = false) :
    page.originalPermissions = .read := by
  rw [Recorded, mappedPermissions] at h
  split at h
  · rw [← Option.some.inj h] at hread hwrite hexecute ⊢
    exact decodePermissions_eq_read hread hwrite hexecute
  · cases h

/-- With the writable pages sealed, exactly the planned pages are `Read` and the others as
before. -/
lemma PlannedPages.sealed (h : m.PlannedPages relroSegments pages)
    {done : List PlannedRelroPage} (hsealed : m.SealedOn done m')
    (hdone : ∀ page, page ∈ done
      ↔ page ∈ pages ∧ hasPermission page.originalPermissions .write = true) (index : ℕ) :
    m'.mappedPermissions index
      = if index ∈ m.indicesOf pages then some .read else m.mappedPermissions index := by
  rw [hsealed.permissions]
  split
  · rename_i hindex
    obtain ⟨page, hpage, rfl⟩ := List.mem_map.mp hindex
    by_cases hwrite : hasPermission page.originalPermissions .write = true
    · exact readOnlyOn_of_mem (List.mem_map.mpr ⟨page, (hdone page).mpr ⟨hpage, hwrite⟩, rfl⟩)
    · rw [readOnlyOn]
      split
      · rfl
      · rw [h.recorded page hpage, (h.recorded page hpage).eq_read (h.readable page hpage)
          (Bool.not_eq_true _ ▸ hwrite) (h.not_executable page hpage)]
  · rename_i hindex
    refine readOnlyOn_of_notMem fun hmem => hindex ?_
    obtain ⟨page, hpage, rfl⟩ := List.mem_map.mp hmem
    exact List.mem_map.mpr ⟨page, ((hdone page).mp hpage).1, rfl⟩

/-- Sealing planned pages gives no page a permission it did not have. -/
lemma PlannedPages.narrows (h : m.PlannedPages relroSegments pages)
    {left : List PlannedRelroPage} (hsealed : m.SealedOn left m')
    (hleft : ∀ page ∈ left, page ∈ pages) {index : ℕ} {required permissions : MemoryPermission}
    (hpermissions : m'.mappedPermissions index = some permissions)
    (hrequired : hasPermission permissions required = true) :
    ∃ permissions, m.mappedPermissions index = some permissions
      ∧ hasPermission permissions required = true := by
  rw [hsealed.permissions, readOnlyOn] at hpermissions
  split at hpermissions
  · rename_i hindex
    obtain ⟨page, hpage, rfl⟩ := List.mem_map.mp hindex
    cases hpermissions
    exact ⟨_, h.recorded page (hleft page hpage),
      hasPermission_of_read (h.readable page (hleft page hpage)) hrequired⟩
  · exact ⟨permissions, hpermissions, hrequired⟩

/-- The number of planned pages is that of the pages of the descriptors. -/
lemma PlannedPages.ncard (h : m.PlannedPages relroSegments pages) :
    (m.relroPages relroSegments).ncard = pages.length := by
  have hset : m.relroPages relroSegments = ↑(m.indicesOf pages).toFinset := by
    ext index
    rw [List.coe_toFinset, ← h.mem_iff]
    rfl
  rw [hset, Set.ncard_coe_finset, List.toFinset_card_of_nodup h.nodup, indicesOf,
    List.length_map]

/-- Pages that are all `Read` are planned as such, and nothing is left to seal. -/
lemma planRelroPages_again (h : planRelroPages m relroSegments options = .ok pages)
    (hsize : m'.pageSize = m.pageSize)
    (hread : ∀ index ∈ m.indicesOf pages, m'.mappedPermissions index = some .read) :
    ∃ pages', planRelroPages m' relroSegments options = .ok pages'
      ∧ pages'.length = pages.length
      ∧ sealRelroPages [] pages' m' = (.ok (), m') := by
  obtain ⟨hoptions, s, hs, -, rfl⟩ := planRelroPages_ok_iff.mp h
  have hpage (x : UInt32) (hx : x ∈ sortedPages s.2) :
      m'.mappedPermissions (m'.pageIndex x) = some .read := by
    rw [pageIndex, hsize]
    exact hread _ (List.mem_map.mpr ⟨m.planned x, List.mem_map.mpr ⟨x, hx, rfl⟩, rfl⟩)
  have hpermissions (x : UInt32) (hx : x ∈ sortedPages s.2) : m'.permissions x = .read := by
    rw [permissions_eq, hpage x hx, Option.getD_some]
  refine ⟨(sortedPages s.2).map m'.planned,
    planRelroPages_ok_iff.mpr ⟨hoptions, s, by rwa [hsize], fun x hx => ⟨?_, ?_, ?_⟩, rfl⟩,
    by rw [List.length_map, List.length_map], ?_⟩
  · rw [isMapped_eq, hpage x hx]
    rfl
  · rw [hpermissions x hx]
    decide
  · rw [hpermissions x hx]
    decide
  · refine sealRelroPages_of_unwritable fun page hmem => ?_
    obtain ⟨x, hx, rfl⟩ := List.mem_map.mp hmem
    rw [planned, hpermissions x hx]
    exact (by decide : hasPermission .read .write = false)

/-- Sealing again finds the same pages, with nothing to do. -/
lemma sealElf32GnuRelro_again {load : Elf32LoadResult}
    (hne : ¬load.relroSegments.isEmpty = true)
    (hplan : planRelroPages m load.relroSegments options = .ok pages)
    (hsize : m'.pageSize = m.pageSize)
    (hread : ∀ index ∈ m.indicesOf pages, m'.mappedPermissions index = some .read) :
    sealElf32GnuRelro m' load options = (.ok (UInt32.ofNat pages.length), m') := by
  obtain ⟨pages', hplan', hlength, hagain⟩ := planRelroPages_again hplan hsize hread
  rw [sealElf32GnuRelro, if_neg hne, hplan']
  dsimp only
  rw [hagain, hlength]

/-- What sealing leaves, for descriptors whose pages are planned. -/
lemma PlannedPages.leaves (h : m.PlannedPages relroSegments pages) :
    Leaves
      (fun _ m' => (∀ index, m'.mappedPermissions index
            = if index ∈ m.indicesOf pages then some .read else m.mappedPermissions index)
        ∧ ∃ left, (∀ page ∈ left, page ∈ pages) ∧ m.SealedOn left m')
      (fun failure m' =>
        (failure.error ≠ .rollbackFailed → m'.mappedPermissions = m.mappedPermissions)
        ∧ ∃ left, (∀ page ∈ left, page ∈ pages) ∧ m.SealedOn left m')
      (sealRelroPages [] pages m) := by
  have hrun := sealRelroPages_leaves (SealedOn.nil_iff.mpr (.refl m)) h.nodup h.recorded
  refine hrun.mono ?_ ?_
  · rintro - m' ⟨done, hdone, hsealed⟩
    have hwritable (page : PlannedRelroPage) : page ∈ done
        ↔ page ∈ pages ∧ hasPermission page.originalPermissions .write = true := by
      rw [hdone, or_iff_right List.not_mem_nil]
    exact ⟨h.sealed hsealed hwritable, done, fun page hpage => ((hwritable page).mp hpage).1,
      hsealed⟩
  · rintro failure m' (⟨-, hsealed⟩ | ⟨herror, left, hleft, hsealed⟩)
    · exact ⟨fun _ => (SealedOn.nil_iff.mp hsealed).permissions, [],
        fun _ hpage => absurd hpage List.not_mem_nil, hsealed⟩
    · exact ⟨fun hne => absurd herror hne, left, hleft, hsealed⟩

end MappedGuestMemory

/-- **RELRO sealing is exact, never broadens and rolls back.**  On success the pages of the
descriptors are exactly `Read`, the others are as before, the count is that of the distinct
pages, and a second call changes nothing; an error other than `RollbackFailed` leaves every
permission as it was; no outcome changes a byte or gives a page a permission it did not
have. -/
theorem relro_seal (memory : MappedGuestMemory) (load : Elf32LoadResult)
    (options : Elf32RelroOptions) :
    let after := sealElf32GnuRelro memory load options
    (∀ sealedPages, after.1 = .ok sealedPages →
        (∀ page ∈ memory.relroPages load.relroSegments,
            after.2.mappedPermissions page = some .read)
          ∧ (∀ page ∉ memory.relroPages load.relroSegments,
            after.2.mappedPermissions page = memory.mappedPermissions page)
          ∧ sealedPages.toNat = (memory.relroPages load.relroSegments).ncard
          ∧ sealElf32GnuRelro after.2 load options = (.ok sealedPages, after.2))
      ∧ (∀ failure, after.1 = .error failure → failure.error ≠ .rollbackFailed →
          ∀ page, after.2.mappedPermissions page = memory.mappedPermissions page)
      ∧ after.2.reservation = memory.reservation
      ∧ ∀ page permissions required, after.2.mappedPermissions page = some permissions →
          hasPermission permissions required = true →
          ∃ permissions, memory.mappedPermissions page = some permissions
            ∧ hasPermission permissions required = true := by
  intro after
  by_cases hempty : load.relroSegments.isEmpty = true
  · have hafter : after = (.ok 0, memory) := if_pos hempty
    have hpages : memory.relroPages load.relroSegments = ∅ := by
      rw [List.isEmpty_iff.mp hempty]
      ext page
      simp [MappedGuestMemory.relroPages]
    rw [hafter, hpages]
    refine ⟨?_, ?_, rfl, fun page permissions required hpage hrequired =>
      ⟨permissions, hpage, hrequired⟩⟩
    · rintro sealedPages ⟨⟩
      exact ⟨fun page hpage => absurd hpage (Set.notMem_empty _), fun _ _ => rfl,
        Set.ncard_empty ℕ ▸ rfl, if_pos hempty⟩
    · rintro failure ⟨⟩
  have hafter : after = _ := if_neg hempty
  rcases hplan : planRelroPages memory load.relroSegments options with failure | pages
  · rw [hplan] at hafter
    rw [hafter]
    refine ⟨?_, fun _ _ _ _ => rfl, rfl, fun page permissions required hpage hrequired =>
      ⟨permissions, hpage, hrequired⟩⟩
    rintro sealedPages ⟨⟩
  rw [hplan] at hafter
  have hplanned := MappedGuestMemory.plannedPages_of_ok hplan
  have hleaves := hplanned.leaves
  dsimp only at hafter
  rcases hrun : memory.sealRelroPages [] pages with ⟨failure | _, m'⟩
  · rw [hrun] at hleaves hafter
    obtain ⟨hrestored, left, hleft, hsealed⟩ := hleaves
    rw [hafter]
    refine ⟨?_, ?_, hsealed.reservation, fun page permissions required hpage hrequired =>
      hplanned.narrows hsealed hleft hpage hrequired⟩
    · rintro sealedPages ⟨⟩
    · rintro failure' ⟨⟩ hne page
      exact congrFun (hrestored hne) page
  · rw [hrun] at hleaves hafter
    obtain ⟨hpermissions, left, hleft, hsealed⟩ := hleaves
    rw [hafter]
    refine ⟨?_, ?_, hsealed.reservation, fun page permissions required hpage hrequired =>
      hplanned.narrows hsealed hleft hpage hrequired⟩
    · rintro sealedPages ⟨⟩
      have hread (index : ℕ) (hindex : index ∈ memory.indicesOf pages) :
          m'.mappedPermissions index = some .read := by
        rw [hpermissions, if_pos hindex]
      refine ⟨fun page hpage => hread page ((hplanned.mem_iff page).mpr hpage),
        fun page hpage => ?_, ?_,
        MappedGuestMemory.sealElf32GnuRelro_again hempty hplan hsealed.pageSize hread⟩
      · rw [hpermissions, if_neg fun hindex => hpage ((hplanned.mem_iff page).mp hindex)]
      · rw [hplanned.ncard, UInt32.toNat_ofNat_of_lt' hplanned.length_lt]
    · rintro failure ⟨⟩

/-- Two overlapping descriptors over a writable page and a read-only one. -/
theorem relro_seal_overlap :
    let m := MappedGuestMemory.create 4096 (fun _ _ => true) MappedGuestMemory.fourKiB_dvd
    let memory := ((m.map 0x1000 0x1000 (.read ||| .write)).2.map 0x2000 0x1000 .read).2
    let load : Elf32LoadResult :=
      { relroSegments := [⟨0x1000, 0x1800, 0x1000, 0x2000⟩, ⟨0x2010, 0x10, 0x2000, 0x1000⟩] }
    (sealElf32GnuRelro memory load ⟨3⟩).1 = .ok 2
      ∧ (sealElf32GnuRelro memory load ⟨3⟩).2.mappedPermissions 1 = some .read := by
  intro m memory load
  have hsealed : (sealElf32GnuRelro memory load ⟨3⟩).1 = .ok 2 := by decide +kernel
  obtain ⟨hread, -⟩ := (relro_seal memory load ⟨3⟩).1 2 hsealed
  have hpage : 1 ∈ memory.pages 0x1000 0x2000 :=
    MappedGuestMemory.mem_pages.mpr (by decide +kernel)
  exact ⟨hsealed, hread 1 ⟨⟨0x1000, 0x1800, 0x1000, 0x2000⟩, by decide, hpage⟩⟩

end LibA32Android

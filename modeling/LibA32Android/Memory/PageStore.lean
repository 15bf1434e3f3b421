/-
The sparse backend is a page-mapped byte store.

What a memory is can be read off the calls made on it: a page has the permissions of
the last successful call that mapped, protected or unmapped it, and a byte is the one
written last since its page was mapped, or zero.

* `StoreCall`, `StoreEvent`: a call, and a call with what it reported;
* `pagePermissions`, `storedByte`: the specification, on the history of events with
  the latest one first;
* `Represents`: a memory agrees with a history, and its unmapped bytes are zero;
* `Represents.step`: every call keeps this, as long as its host calls succeed;
* `page_store`: after any sequence of calls, accesses succeed exactly when the
  history grants them, deliver the bytes of the history, and calls that return false
  change nothing.
-/
import LibA32Android.Memory.PageOperations

namespace LibA32Android

open Foundations

/-- A call on the memory. -/
inductive StoreCall where
  | map (address : UInt32) (length : ℕ) (permissions : MemoryPermission)
  | protect (address : UInt32) (length : ℕ) (permissions : MemoryPermission)
  | unmap (address : UInt32) (length : ℕ)
  | write (address : UInt32) (input : List UInt8)
  | read (address : UInt32) (length : ℕ)
  | readCode (address : UInt32) (length : ℕ)

/-- The number of bytes a call is about. -/
def StoreCall.length : StoreCall → ℕ
  | .map _ length _ => length
  | .protect _ length _ => length
  | .unmap _ length => length
  | .write _ input => input.length
  | .read _ length => length
  | .readCode _ length => length

/-- A call and its answer: `none` is false, and the bytes are those of a read. -/
structure StoreEvent where
  call : StoreCall
  answer : Option (List UInt8)

/-! ### The specification -/

/-- The page lies in the range. -/
def Covers (pageSize : ℕ) (address : UInt32) (length page : ℕ) : Prop :=
  address.toNat ≤ page * pageSize ∧ page * pageSize < address.toNat + length

instance (pageSize : ℕ) (address : UInt32) (length page : ℕ) :
    Decidable (Covers pageSize address length page) :=
  inferInstanceAs (Decidable (_ ∧ _))

namespace StoreEvent

/-- What an event makes of a page, if it is about it: the permissions of a mapped page, or
`none` for one that is no longer mapped. -/
def pageChange (pageSize page : ℕ) : StoreEvent → Option (Option MemoryPermission)
  | ⟨.map address length permissions, some _⟩ =>
    if Covers pageSize address length page then some (some permissions) else none
  | ⟨.protect address length permissions, some _⟩ =>
    if Covers pageSize address length page then some (some permissions) else none
  | ⟨.unmap address length, some _⟩ =>
    if Covers pageSize address length page then some none else none
  | _ => none

/-- The byte an event leaves at an address, if it is about it: zero in a page just mapped,
or the byte written. -/
def byteChange (pageSize x : ℕ) : StoreEvent → Option UInt8
  | ⟨.map address length _, some _⟩ =>
    if Covers pageSize address length (x / pageSize) then some 0 else none
  | ⟨.write address input, some _⟩ =>
    if address.toNat ≤ x then input[x - address.toNat]? else none
  | _ => none

end StoreEvent

/-- The permissions of a page after a history: those of the latest event about it. -/
def pagePermissions (pageSize : ℕ) (history : List StoreEvent) (page : ℕ) :
    Option MemoryPermission :=
  (history.findSome? (·.pageChange pageSize page)).getD none

/-- The byte at an address after a history: the latest one written since its page was
mapped, or zero. -/
def storedByte (pageSize : ℕ) (history : List StoreEvent) (x : ℕ) : UInt8 :=
  (history.findSome? (·.byteChange pageSize x)).getD 0

/-- The range lies inside the address space, and each page it touches is mapped with the
permission. -/
def Granted (pageSize : ℕ) (history : List StoreEvent) (required : MemoryPermission)
    (address : UInt32) (length : ℕ) : Prop :=
  address.toNat + length ≤ 2 ^ 32
    ∧ ∀ x, address.toNat ≤ x → x < address.toNat + length →
        ∃ permissions, pagePermissions pageSize history (x / pageSize) = some permissions
          ∧ hasPermission permissions required = true

section History

variable {pageSize : ℕ} {event : StoreEvent} {history : List StoreEvent}

lemma pagePermissions_cons (page : ℕ) : pagePermissions pageSize (event :: history) page
    = (event.pageChange pageSize page).getD (pagePermissions pageSize history page) := by
  rw [pagePermissions, List.findSome?_cons]
  cases event.pageChange pageSize page with
  | none => rfl
  | some change => rfl

lemma storedByte_cons (x : ℕ) : storedByte pageSize (event :: history) x
    = (event.byteChange pageSize x).getD (storedByte pageSize history x) := by
  rw [storedByte, List.findSome?_cons]
  cases event.byteChange pageSize x with
  | none => rfl
  | some byte => rfl

/-- An event that is about no page and no byte. -/
def StoreEvent.Silent (event : StoreEvent) : Prop :=
  ∀ pageSize x, event.pageChange pageSize x = none ∧ event.byteChange pageSize x = none

/-- A call that returned false is about nothing. -/
lemma silent_of_refused (call : StoreCall) : (StoreEvent.mk call none).Silent := by
  intro pageSize x
  cases call <;> exact ⟨rfl, rfl⟩

end History

/-! ### The calls -/

namespace MappedGuestMemory

/-- The answer of a page operation. -/
def reported : Bool × MappedGuestMemory → Option (List UInt8) × MappedGuestMemory
  | (true, m) => (some [], m)
  | (false, m) => (none, m)

/-- One call: its answer and the memory it leaves. -/
def perform (m : MappedGuestMemory) : StoreCall → Option (List UInt8) × MappedGuestMemory
  | .map address length permissions => reported (m.map address length permissions)
  | .protect address length permissions => reported (m.protect address length permissions)
  | .unmap address length => reported (m.unmap address length)
  | .write address input => reported (GuestMemory.write m address input)
  | .read address length => (GuestMemory.read m address length, m)
  | .readCode address length => (GuestMemory.readCode m address length, m)

/-- One call, added to the history. -/
def performNext (s : List StoreEvent × MappedGuestMemory) (call : StoreCall) :
    List StoreEvent × MappedGuestMemory :=
  (⟨call, (s.2.perform call).1⟩ :: s.1, (s.2.perform call).2)

/-- A sequence of calls: its history, the latest event first, and the memory it leaves. -/
def performAll (m : MappedGuestMemory) (calls : List StoreCall) :
    List StoreEvent × MappedGuestMemory :=
  calls.foldl performNext ([], m)

variable {m m' : MappedGuestMemory} {history : List StoreEvent}

/-- The memory agrees with the history, and what is not mapped is zero. -/
structure Represents (history : List StoreEvent) (m : MappedGuestMemory) : Prop where
  host : ∀ n call, m.host n call = true
  pages : ∀ page, m.mappedPermissions page = pagePermissions m.pageSize history page
  stored : ∀ x, m.Mapped (x / m.pageSize) → m.reservation x = storedByte m.pageSize history x
  blank : ∀ x, ¬m.Mapped (x / m.pageSize) → m.reservation x = 0

/-- The two memories have the same pages and bytes. -/
structure SameStore (m m' : MappedGuestMemory) : Prop where
  pageSize : m'.pageSize = m.pageSize
  host : m'.host = m.host
  pageState : m'.pageState = m.pageState
  reservation : m'.reservation = m.reservation

lemma SameStore.refl (m : MappedGuestMemory) : SameStore m m := ⟨rfl, rfl, rfl, rfl⟩

lemma UnchangedOff.sameStore (h : UnchangedOff ∅ m m') : SameStore m m' :=
  ⟨h.pageSize, h.host, funext fun page => h.pageState page (Set.notMem_empty _),
    funext fun x => h.bytes x (Set.notMem_empty _)⟩

/-- A silent event that leaves the pages and bytes alone. -/
lemma Represents.skip {event : StoreEvent} (h : Represents history m) (hsame : SameStore m m')
    (hsilent : event.Silent) : Represents (event :: history) m' := by
  obtain ⟨hsize, hhost, hstate, hbytes⟩ := hsame
  have hpage (page : ℕ) : m'.mappedPermissions page = m.mappedPermissions page := by
    rw [mappedPermissions, mappedPermissions, hstate]
  have hmapped (page : ℕ) : m'.Mapped page ↔ m.Mapped page := by rw [Mapped, Mapped, hstate]
  refine ⟨fun n call => hhost ▸ h.host n call, fun page => ?_, fun x hx => ?_, fun x hx => ?_⟩
  · rw [hpage, h.pages page, pagePermissions_cons, (hsilent _ page).1, hsize]
    rfl
  · rw [hmapped, hsize] at hx
    rw [hbytes, h.stored x hx, storedByte_cons, (hsilent _ x).2, hsize]
    rfl
  · rw [hmapped, hsize] at hx
    rw [hbytes, h.blank x hx]

/-! ### One call -/

/-- **A call that returns false changes no page and no byte**, as long as host calls
succeed. -/
lemma perform_refused (hhost : ∀ n call, m.host n call = true) {call : StoreCall}
    (h : (m.perform call).1 = none) : SameStore m (m.perform call).2 := by
  have hfalse {s : Bool × MappedGuestMemory} (h : (reported s).1 = none) :
      s = (false, (reported s).2) := by
    obtain ⟨_ | _, m'⟩ := s
    · rfl
    · cases h
  cases call with
  | map address length permissions => exact (map_failed (hfalse h)).sameStore
  | protect address length permissions => exact (protect_failed (hfalse h)).sameStore
  | unmap address length =>
      obtain ⟨hsize, hhost', hstate, hbytes | ⟨-, -, -, hfailed, -⟩⟩ := unmap_failed (hfalse h)
      · exact ⟨hsize, hhost', hstate, hbytes⟩
      · rw [hhost] at hfailed
        cases hfailed
  | write address input =>
      rw [show (m.perform (.write address input)).2 = m from (write_eq_false (hfalse h)).2]
      exact .refl m
  | read address length => exact .refl m
  | readCode address length => exact .refl m

/-- The pages of a page range are those it covers. -/
lemma IsPageRange.mem_pages_iff_covers {address : UInt32} {length page : ℕ}
    (h : m.IsPageRange address length) :
    page ∈ m.pages address length ↔ Covers m.pageSize address length page := by
  have hiff := h.mem_pages_iff (x := page * m.pageSize)
  rwa [Nat.mul_div_cancel page m.pageSize_pos] at hiff

/-- The pages of a history after an event that gives the pages of a range new
permissions. -/
lemma Represents.pages_of_range {address : UInt32} {length : ℕ} {event : StoreEvent}
    {change : Option MemoryPermission} (h : Represents history m)
    (hrange : m.IsPageRange address length) (hsize : m'.pageSize = m.pageSize)
    (hevent : ∀ page, event.pageChange m.pageSize page
      = if Covers m.pageSize address length page then some change else none)
    (hinside : ∀ page ∈ m.pages address length, m'.mappedPermissions page = change)
    (houtside : ∀ page ∉ m.pages address length,
      m'.mappedPermissions page = m.mappedPermissions page) (page : ℕ) :
    m'.mappedPermissions page = pagePermissions m'.pageSize (event :: history) page := by
  rw [hsize, pagePermissions_cons, hevent]
  by_cases hp : page ∈ m.pages address length
  · rw [if_pos (hrange.mem_pages_iff_covers.mp hp), hinside page hp]
    rfl
  · rw [if_neg fun hc => hp (hrange.mem_pages_iff_covers.mpr hc), houtside page hp, h.pages page]
    rfl

lemma Represents.map {address : UInt32} {length : ℕ} {permissions : MemoryPermission}
    (h : Represents history m) (hlength : length ≤ 2 ^ 32)
    (hmap : m.map address length permissions = (true, m')) :
    Represents (⟨.map address length permissions, some []⟩ :: history) m' := by
  obtain ⟨hvalid, hperm, hfree, hoff, hstate, hbytes⟩ := map_ok hmap
  have hspace := address.toNat_lt
  have hrange := isPageRange_of_valid hvalid (by omega)
  have hinside : ∀ page ∈ m.pages address length, m'.mappedPermissions page = some permissions :=
    fun page hp => mappedPermissions_encode hperm (hstate page hp)
  refine ⟨fun n call => hoff.host ▸ h.host n call,
    h.pages_of_range hrange hoff.pageSize (fun _ => rfl) hinside fun page hp =>
      hoff.mappedPermissions hp, fun x hx => ?_, fun x hx => ?_⟩
  · rw [hoff.pageSize] at hx ⊢
    rw [hbytes, storedByte_cons]
    by_cases hp : x / m.pageSize ∈ m.pages address length
    · -- a page just mapped was not mapped before, so its bytes are zero
      rw [h.blank x (hfree _ hp), StoreEvent.byteChange,
        if_pos (hrange.mem_pages_iff_covers.mp hp)]
      rfl
    · rw [h.stored x ((hoff.mapped_iff hp).mp hx), StoreEvent.byteChange,
        if_neg fun hc => hp (hrange.mem_pages_iff_covers.mpr hc)]
      rfl
  · rw [hoff.pageSize] at hx
    rw [hbytes]
    refine h.blank x fun hmapped => hx ?_
    have hp : x / m.pageSize ∉ m.pages address length := fun hp => hfree _ hp hmapped
    exact (hoff.mapped_iff hp).mpr hmapped

lemma Represents.protect {address : UInt32} {length : ℕ} {permissions : MemoryPermission}
    (h : Represents history m) (hlength : length ≤ 2 ^ 32)
    (hprotect : m.protect address length permissions = (true, m')) :
    Represents (⟨.protect address length permissions, some []⟩ :: history) m' := by
  obtain ⟨hvalid, hperm, hmapped, hoff, hstate, hbytes⟩ := protect_ok hprotect
  have hspace := address.toNat_lt
  have hrange := isPageRange_of_valid hvalid (by omega)
  have hinside : ∀ page ∈ m.pages address length, m'.mappedPermissions page = some permissions :=
    fun page hp => mappedPermissions_encode hperm (hstate page hp)
  have hsame (page : ℕ) : m'.Mapped page ↔ m.Mapped page := by
    by_cases hp : page ∈ m.pages address length
    · exact iff_of_true (mapped_iff_isSome.mpr (by rw [hinside page hp]; rfl)) (hmapped page hp)
    · exact hoff.mapped_iff hp
  refine ⟨fun n call => hoff.host ▸ h.host n call,
    h.pages_of_range hrange hoff.pageSize (fun _ => rfl) hinside fun page hp =>
      hoff.mappedPermissions hp, fun x hx => ?_, fun x hx => ?_⟩
  · rw [hoff.pageSize, hsame] at hx
    rw [hbytes, hoff.pageSize, h.stored x hx, storedByte_cons]
    rfl
  · rw [hoff.pageSize, hsame] at hx
    rw [hbytes, h.blank x hx]

lemma Represents.unmap {address : UInt32} {length : ℕ} (h : Represents history m)
    (hlength : length ≤ 2 ^ 32) (hunmap : m.unmap address length = (true, m')) :
    Represents (⟨.unmap address length, some []⟩ :: history) m' := by
  obtain ⟨hvalid, -, hsize, hhost, hother, hzero, hbytes⟩ := unmap_ok hunmap
  have hspace := address.toNat_lt
  have hrange := isPageRange_of_valid hvalid (by omega)
  have hinside : ∀ page ∈ m.pages address length, m'.mappedPermissions page = none := by
    intro page hp
    rw [mappedPermissions, hzero page hp]
    rfl
  have houtside : ∀ page ∉ m.pages address length,
      m'.mappedPermissions page = m.mappedPermissions page := by
    intro page hp
    rw [mappedPermissions, mappedPermissions, hother page hp]
  refine ⟨fun n call => hhost ▸ h.host n call,
    h.pages_of_range hrange hsize (fun _ => rfl) hinside houtside, fun x hx => ?_, fun x hx => ?_⟩
  · rw [hsize] at hx ⊢
    have hp : x / m.pageSize ∉ m.pages address length := by
      intro hp
      rw [mapped_iff_isSome, hinside _ hp] at hx
      cases hx
    rw [mapped_iff_isSome, houtside _ hp, ← mapped_iff_isSome] at hx
    rw [hrange.mem_pages_iff] at hp
    rw [hbytes, fill_of_outside (by omega), h.stored x hx, storedByte_cons]
    rfl
  · rw [hsize] at hx
    rw [hbytes]
    by_cases hp : x / m.pageSize ∈ m.pages address length
    · obtain ⟨h1, h2⟩ := hrange.mem_pages_iff.mp hp
      exact fill_of_mem h1 h2
    · rw [mapped_iff_isSome, houtside _ hp, ← mapped_iff_isSome] at hx
      rw [hrange.mem_pages_iff] at hp
      rw [fill_of_outside (by omega), h.blank x hx]

lemma Represents.write {address : UInt32} {input : List UInt8} (h : Represents history m)
    (hwrite : GuestMemory.write m address input = (true, m')) :
    Represents (⟨.write address input, some []⟩ :: history) m' := by
  obtain ⟨hvalid, rfl⟩ := write_eq_true hwrite
  have hgranted := validAccess_iff.mp hvalid
  refine ⟨h.host, fun page => ?_, fun x hx => ?_, fun x hx => ?_⟩
  · rw [pagePermissions_cons]
    exact h.pages page
  · have hstored : m.reservation x
        = storedByte (m.withBytes (overwrite m.reservation address.toNat input)).pageSize history x :=
      h.stored x hx
    rw [storedByte_cons, StoreEvent.byteChange, withBytes_reservation, overwrite, ← hstored]
    split
    · rfl
    · rfl
  · -- what is not mapped is not in the written range
    have houtside : x < address.toNat ∨ address.toNat + input.length ≤ x := by
      by_contra hinside
      rcases hgranted with hempty | ⟨-, hpages⟩
      · omega
      · exact hx (hpages x (by omega) (by omega)).1
    rw [withBytes_reservation, overwrite_of_outside houtside]
    exact h.blank x hx

/-- **One call**: the memory it leaves agrees with the history and the call. -/
lemma Represents.step (h : Represents history m) {call : StoreCall}
    (hlength : call.length ≤ 2 ^ 32) :
    Represents (⟨call, (m.perform call).1⟩ :: history) (m.perform call).2 := by
  cases hanswer : (m.perform call).1 with
  | none => exact h.skip (perform_refused h.host hanswer) (silent_of_refused call)
  | some bytes =>
      have htrue {s : Bool × MappedGuestMemory} (hs : (reported s).1 = some bytes) :
          s = (true, (reported s).2) ∧ bytes = [] := by
        obtain ⟨_ | _, m'⟩ := s
        · cases hs
        · exact ⟨rfl, (Option.some.inj hs).symm⟩
      cases call with
      | map address length permissions =>
          obtain ⟨hmap, rfl⟩ := htrue hanswer
          exact h.map hlength hmap
      | protect address length permissions =>
          obtain ⟨hprotect, rfl⟩ := htrue hanswer
          exact h.protect hlength hprotect
      | unmap address length =>
          obtain ⟨hunmap, rfl⟩ := htrue hanswer
          exact h.unmap hlength hunmap
      | write address input =>
          obtain ⟨hwrite, rfl⟩ := htrue hanswer
          exact h.write hwrite
      | read address length => exact h.skip (.refl m) fun _ _ => ⟨rfl, rfl⟩
      | readCode address length => exact h.skip (.refl m) fun _ _ => ⟨rfl, rfl⟩

/-- No call changes the page size. -/
lemma perform_pageSize (m : MappedGuestMemory) (call : StoreCall) :
    (m.perform call).2.pageSize = m.pageSize := by
  have hreported (s : Bool × MappedGuestMemory) : (reported s).2 = s.2 := by
    obtain ⟨_ | _, m'⟩ := s
    · rfl
    · rfl
  have hsetPages (call : HostCall) (wrong : UInt8 → Bool) (address : UInt32) (length : ℕ)
      (permissions : MemoryPermission) :
      (m.setPages call wrong address length permissions).2.pageSize = m.pageSize := by
    rcases h : m.setPages call wrong address length permissions with ⟨_ | _, m'⟩
    · exact (setPages_failed h).pageSize
    · obtain ⟨-, -, -, hoff, -⟩ := setPages_ok h
      exact hoff.pageSize
  cases call with
  | map address length permissions =>
      rw [perform, hreported]
      exact hsetPages _ _ _ _ _
  | protect address length permissions =>
      rw [perform, hreported]
      exact hsetPages _ _ _ _ _
  | unmap address length =>
      rw [perform, hreported]
      rcases h : m.unmap address length with ⟨_ | _, m'⟩
      · exact (unmap_failed h).1
      · exact (unmap_ok h).2.2.1
  | write address input =>
      rw [perform, hreported]
      rcases h : GuestMemory.write m address input with ⟨_ | _, m'⟩
      · rw [(write_eq_false h).2]
      · rw [(write_eq_true h).2]
        rfl
  | read address length => rfl
  | readCode address length => rfl

/-! ### Sequences of calls -/

lemma represents_create {pageSize : ℕ} {host : ℕ → HostCall → Bool} (hdvd : pageSize ∣ 2 ^ 32)
    (hhost : ∀ n call, host n call = true) : Represents [] (create pageSize host hdvd) :=
  have hunmapped : ¬ pageIsMapped 0 = true := by decide
  ⟨hhost, fun _ => if_neg hunmapped, fun _ _ => rfl, fun _ _ => rfl⟩

/-- A sequence of calls, from any memory that agrees with its history. -/
lemma Represents.foldl (h : Represents history m) {calls : List StoreCall}
    (hlength : ∀ call ∈ calls, call.length ≤ 2 ^ 32) :
    Represents (calls.foldl performNext (history, m)).1 (calls.foldl performNext (history, m)).2
      ∧ (calls.foldl performNext (history, m)).2.pageSize = m.pageSize := by
  induction calls generalizing history m with
  | nil => exact ⟨h, rfl⟩
  | cons call calls ih =>
      obtain ⟨hrest, hsize⟩ := ih (h.step (hlength call List.mem_cons_self)) fun call' hcall =>
        hlength call' (List.mem_cons_of_mem call hcall)
      exact ⟨hrest, hsize.trans (m.perform_pageSize call)⟩

/-- An access, read off the history.  An empty one touches no page. -/
lemma Represents.validAccess_iff (h : Represents history m) {required : MemoryPermission}
    {address : UInt32} {length : ℕ} :
    m.validAccess address length required = true
      ↔ Granted m.pageSize history required address length := by
  rw [MappedGuestMemory.validAccess_iff, Granted]
  simp only [grants_iff, h.pages]
  refine or_iff_right_of_imp fun hempty => ⟨?_, fun x hx hlt => ?_⟩
  · have hlt := address.toNat_lt
    omega
  · omega

/-- The bytes of a valid access, read off the history. -/
lemma Represents.window_eq (h : Represents history m) {required : MemoryPermission}
    {address : UInt32} {length : ℕ} (hvalid : m.validAccess address length required = true) :
    window m.reservation address.toNat length
      = window (storedByte m.pageSize history) address.toNat length := by
  refine window_congr fun x hx hlt => ?_
  rcases MappedGuestMemory.validAccess_iff.mp hvalid with hempty | ⟨-, hgranted⟩
  · omega
  · exact h.stored x (hgranted x hx hlt).1

/-- **`MappedGuestMemory` behaves as a page-mapped byte store.**  After any sequence of
calls on a new memory whose host calls succeed, the pages are mapped as the history
says; an access succeeds exactly when the history grants it; a successful one delivers the
bytes of the history; and a call that returns false changes no page and no byte. -/
theorem page_store (pageSize : ℕ) (hdvd : pageSize ∣ 2 ^ 32) (host : ℕ → HostCall → Bool)
    (hhost : ∀ n call, host n call = true) (calls : List StoreCall)
    (hlength : ∀ call ∈ calls, call.length ≤ 2 ^ 32) :
    let history := ((create pageSize host hdvd).performAll calls).1
    let memory := ((create pageSize host hdvd).performAll calls).2
    (∀ address : UInt32,
        memory.isMapped address
            = (pagePermissions pageSize history (address.toNat / pageSize)).isSome
          ∧ memory.permissions address
            = (pagePermissions pageSize history (address.toNat / pageSize)).getD .none)
      ∧ (∀ address length, (GuestMemory.read memory address length).isSome
          ↔ Granted pageSize history .read address length)
      ∧ (∀ address input, (GuestMemory.write memory address input).1 = true
          ↔ Granted pageSize history .write address input.length)
      ∧ (∀ address length, (GuestMemory.readCode memory address length).isSome
          ↔ Granted pageSize history .execute address length)
      ∧ (∀ address length out, GuestMemory.read memory address length = some out →
          out = window (storedByte pageSize history) address.toNat length)
      ∧ (∀ address length out, GuestMemory.readCode memory address length = some out →
          out = window (storedByte pageSize history) address.toNat length)
      ∧ ∀ call, (memory.perform call).1 = none →
          (memory.perform call).2.pageState = memory.pageState
            ∧ (memory.perform call).2.reservation = memory.reservation := by
  intro history memory
  obtain ⟨hstore, hsize⟩ := (represents_create hdvd hhost).foldl hlength
  change Represents history memory at hstore
  change memory.pageSize = pageSize at hsize
  rw [← hsize]
  have hread {required : MemoryPermission} (address : UInt32) (length : ℕ) :
      (if memory.validAccess address length required then
          some (window memory.reservation address.toNat length) else none).isSome
        ↔ Granted memory.pageSize history required address length := by
    rw [← hstore.validAccess_iff]
    cases memory.validAccess address length required with
    | true => exact iff_of_true rfl rfl
    | false => exact iff_of_false Bool.false_ne_true Bool.false_ne_true
  have hbytes {required : MemoryPermission} (address : UInt32) (length : ℕ) (out : List UInt8)
      (h : (if memory.validAccess address length required then
          some (window memory.reservation address.toNat length) else none) = some out) :
      out = window (storedByte memory.pageSize history) address.toNat length := by
    split at h
    · rename_i hvalid
      rw [← Option.some.inj h, hstore.window_eq hvalid]
    · cases h
  refine ⟨fun address => ?_, hread, fun address input => ?_, hread, hbytes, hbytes,
    fun call hrefused => ?_⟩
  · rw [← hstore.pages]
    exact ⟨memory.isMapped_eq address, memory.permissions_eq address⟩
  · rw [← hstore.validAccess_iff]
    change (if _ then _ else _ : Bool × MappedGuestMemory).1 = true ↔ _
    cases memory.validAccess address input.length .write with
    | true => exact iff_of_true rfl rfl
    | false => exact iff_of_false Bool.false_ne_true Bool.false_ne_true
  · have hsame := perform_refused hstore.host hrefused
    exact ⟨hsame.pageState, hsame.reservation⟩

/-- A page that is unmapped and mapped again reads as zero where nothing was written
since. -/
theorem page_store_remapped :
    let calls : List StoreCall :=
      [.map 0x1000 0x1000 (.read ||| .write), .write 0x1000 [7, 8], .unmap 0x1000 0x1000,
        .map 0x1000 0x1000 (.read ||| .write), .write 0x1001 [9]]
    GuestMemory.read ((create 4096 (fun _ _ => true) fourKiB_dvd).performAll calls).2 0x1000 2
      = some [0, 9] := by
  intro calls
  obtain ⟨-, -, -, -, hbytes, -⟩ := page_store 4096 fourKiB_dvd (fun _ _ => true)
    (fun _ _ => rfl) calls (by decide)
  cases hread : GuestMemory.read ((create 4096 (fun _ _ => true) fourKiB_dvd).performAll calls).2
      0x1000 2 with
  | none =>
      have hsome : (GuestMemory.read ((create 4096 (fun _ _ => true) fourKiB_dvd).performAll
          calls).2 0x1000 2).isSome := by decide +kernel
      rw [hread] at hsome
      cases hsome
  | some out =>
      rw [hbytes _ _ _ hread]
      decide +kernel

end MappedGuestMemory

end LibA32Android

/-
Host pages follow guest permissions.

The fast path of the translator loads and stores through the host reservation
directly, the callback path goes through `read` and `write`.  Both refuse the
same accesses as long as the protection of every host page is the one its page
state asks for.

* `HostFollows`: the host protection of each page, read off its page state;
* `HostFollows.call`: every page operation keeps it, whether it succeeds, is
  refused, or stops at a failing host call;
* `HostFollows.calls`: it holds after any sequence of operations;
* `fastmem_matches_callbacks`: a direct access faults exactly when the callback
  would be refused.
-/
import LibA32Android.Memory.Mapped

namespace LibA32Android

open Foundations

/-! ### Calls -/

/-- A call of a page operation.  The ranges are at most the address space. -/
inductive PageCall where
  | map (address : UInt32) (length : Fin (2 ^ 32 + 1)) (permissions : MemoryPermission)
  | protect (address : UInt32) (length : Fin (2 ^ 32 + 1)) (permissions : MemoryPermission)
  | unmap (address : UInt32) (length : Fin (2 ^ 32 + 1))

namespace MappedGuestMemory

/-- The memory a call leaves, whatever it reports. -/
def call (m : MappedGuestMemory) : PageCall → MappedGuestMemory
  | .map address length permissions => (m.map address length permissions).2
  | .protect address length permissions => (m.protect address length permissions).2
  | .unmap address length => (m.unmap address length).2

/-- The memory a sequence of calls leaves. -/
def calls (m : MappedGuestMemory) (calls : List PageCall) : MappedGuestMemory :=
  calls.foldl call m

/-- A direct host load at a guest address faults. -/
def hostLoadFaults (m : MappedGuestMemory) (address : UInt32) : Bool :=
  !(m.hostProtection (m.pageIndex address)).read

/-- A direct host store at a guest address faults. -/
def hostStoreFaults (m : MappedGuestMemory) (address : UInt32) : Bool :=
  !(m.hostProtection (m.pageIndex address)).write

variable {m m' : MappedGuestMemory} {address : UInt32} {length : ℕ}
  {permissions : MemoryPermission}

/-! ### The protection a page state asks for -/

/-- The host protection of a page with the given state. -/
def protectionOfState (state : UInt8) : HostProtection :=
  if pageIsMapped state then hostProtectionOf (decodePermissions state) else .none

/-- The state byte of a page is one that the operations leave. -/
def ValidState (state : UInt8) : Prop :=
  pageIsMapped state = true → validPermissions (decodePermissions state) = true

/-- Page states are well formed, and the host pages are protected accordingly. -/
structure HostFollows (m : MappedGuestMemory) : Prop where
  valid : ∀ page, ValidState (m.pageState page)
  protection : ∀ page, m.hostProtection page = protectionOfState (m.pageState page)

lemma protectionOfState_encode (h : validPermissions permissions = true) :
    protectionOfState (encodePageState permissions) = hostProtectionOf permissions := by
  rw [protectionOfState, if_pos (pageIsMapped_encode _), decodePermissions_encode h]

lemma validState_encode (h : validPermissions permissions = true) :
    ValidState (encodePageState permissions) := by
  intro _
  rwa [decodePermissions_encode h]

lemma protectionOfState_zero : protectionOfState 0 = .none := rfl

lemma validState_zero : ValidState 0 := fun h => absurd h (by simp)

/-- Valid permissions that include `Execute` include `Read`, so the host page is
readable for the guest's reads only. -/
lemma hostProtectionOf_read (h : validPermissions permissions = true) :
    (hostProtectionOf permissions).read = hasPermission permissions .read := by
  rw [validPermissions] at h
  split at h
  · cases h
  split at h
  · cases h
  rename_i hread
  rw [hostProtectionOf]
  cases hr : hasPermission permissions .read <;> simp_all

/-! ### One call -/

/-- Host pages and page states of a range are changed together. -/
lemma HostFollows.fill (h : m.HostFollows) {first count : ℕ} {state : UInt8}
    (hvalid : ValidState state)
    (hstate : m'.pageState = Foundations.fill m.pageState first count state)
    (hhost : m'.hostProtection
      = Foundations.fill m.hostProtection first count (protectionOfState state)) :
    m'.HostFollows := by
  constructor
  · intro page
    rw [hstate]
    by_cases hp : first ≤ page ∧ page < first + count
    · rwa [fill_of_mem hp.1 hp.2]
    · rw [fill_of_outside (by omega)]
      exact h.valid page
  · intro page
    rw [hstate, hhost]
    by_cases hp : first ≤ page ∧ page < first + count
    · rw [fill_of_mem hp.1 hp.2, fill_of_mem hp.1 hp.2]
    · rw [fill_of_outside (by omega), fill_of_outside (by omega)]
      exact h.protection page

/-- What does not touch host pages or page states keeps the agreement. -/
lemma HostFollows.congr (h : m.HostFollows) (hstate : m'.pageState = m.pageState)
    (hhost : m'.hostProtection = m.hostProtection) : m'.HostFollows :=
  ⟨fun page => hstate ▸ h.valid page, fun page => by rw [hstate, hhost, h.protection page]⟩

lemma mprotect_true {call : HostCall} {protection : HostProtection}
    (h : m.mprotect call address length protection = (true, m')) :
    m' = { m with
      hostCalls := m.hostCalls + 1
      hostProtection := Foundations.fill m.hostProtection (m.pageIndex address)
        (length / m.pageSize) protection } := by
  rw [mprotect] at h
  split at h
  · exact (Prod.mk.inj h).2.symm
  · cases h

lemma HostFollows.setPages (h : m.HostFollows) (call : HostCall) (wrong : UInt8 → Bool)
    (address : UInt32) (length : ℕ) (permissions : MemoryPermission) :
    (m.setPages call wrong address length permissions).2.HostFollows := by
  rw [MappedGuestMemory.setPages]
  split
  · exact h
  rename_i hv
  simp only [Bool.or_eq_true, Bool.not_eq_true', not_or, Bool.not_eq_false] at hv
  split
  · exact h
  split
  · rename_i m₁ hprot
    rw [mprotect_failed hprot]
    exact h.congr rfl rfl
  · rename_i m₁ hprot
    rw [mprotect_true hprot]
    exact h.fill (validState_encode hv.2) rfl (by rw [protectionOfState_encode hv.2]; rfl)

/-- An `unmap` whose `madvise` succeeds and whose `mprotect` fails leaves the
protection and the state of its pages alone. -/
lemma HostFollows.unmap (h : m.HostFollows) (address : UInt32) (length : ℕ) :
    (m.unmap address length).2.HostFollows := by
  rw [MappedGuestMemory.unmap]
  split
  · exact h
  split
  · exact h
  split
  · rename_i m₁ hadvise
    rw [madviseDontneed_failed hadvise]
    exact h.congr rfl rfl
  rename_i m₁ hadvise
  have h₁ := madviseDontneed_ok hadvise
  subst h₁
  split
  · rename_i m₂ hprot
    rw [mprotect_failed hprot]
    exact h.congr rfl rfl
  · rename_i m₂ hprot
    rw [mprotect_true hprot]
    exact h.fill validState_zero rfl rfl

lemma HostFollows.call (h : m.HostFollows) (call : PageCall) : (m.call call).HostFollows := by
  cases call with
  | map address length permissions => exact h.setPages _ _ address length permissions
  | protect address length permissions => exact h.setPages _ _ address length permissions
  | unmap address length => exact h.unmap address length

/-! ### Every sequence of calls -/

lemma create_hostFollows (pageSize : ℕ) (host : ℕ → HostCall → Bool)
    (hdvd : pageSize ∣ 2 ^ 32) : (create pageSize host hdvd).HostFollows :=
  ⟨fun _ => validState_zero, fun _ => protectionOfState_zero.symm⟩

lemma HostFollows.calls (h : m.HostFollows) (calls : List PageCall) :
    (m.calls calls).HostFollows := by
  induction calls generalizing m with
  | nil => exact h
  | cons call calls ih => exact ih (h.call call)

/-! ### Accesses to one byte -/

lemma validAccess_one {required : MemoryPermission} :
    m.validAccess address 1 required = true ↔ m.Grants required (m.pageIndex address) := by
  have hlt := address.toNat_lt
  rw [validAccess_iff]
  constructor
  · rintro (h | ⟨-, h⟩)
    · cases h
    · exact h address.toNat le_rfl (Nat.lt_succ_self _)
  · intro h
    refine Or.inr ⟨by omega, fun x hx hlt => ?_⟩
    rwa [show x = address.toNat by omega]

lemma HostFollows.unmapped (h : m.HostFollows) {page : ℕ} (hm : ¬m.Mapped page) :
    m.hostProtection page = .none := by
  rw [h.protection page]
  exact if_neg hm

lemma HostFollows.mapped (h : m.HostFollows) {page : ℕ} (hm : m.Mapped page) :
    m.hostProtection page = hostProtectionOf (decodePermissions (m.pageState page)) := by
  rw [h.protection page]
  exact if_pos hm

lemma HostFollows.read_iff (h : m.HostFollows) {page : ℕ} :
    (m.hostProtection page).read = true ↔ m.Grants .read page := by
  rw [Grants]
  by_cases hm : m.Mapped page
  · rw [h.mapped hm, hostProtectionOf_read (h.valid page hm)]
    simp [hm]
  · rw [h.unmapped hm]
    simp [hm, HostProtection.none]

lemma HostFollows.write_iff (h : m.HostFollows) {page : ℕ} :
    (m.hostProtection page).write = true ↔ m.Grants .write page := by
  rw [Grants]
  by_cases hm : m.Mapped page
  · rw [h.mapped hm]
    simp [hm, hostProtectionOf]
  · rw [h.unmapped hm]
    simp [hm, HostProtection.none]

/-- A page that can be written can be read. -/
lemma HostFollows.read_of_write (h : m.HostFollows) {page : ℕ} (hwrite : m.Grants .write page) :
    m.Grants .read page := by
  have hvalid := h.valid page hwrite.1
  rw [validPermissions] at hvalid
  refine ⟨hwrite.1, ?_⟩
  by_contra hread
  simp [hwrite.2, hread] at hvalid

lemma HostFollows.load_iff (h : m.HostFollows) (address : UInt32) :
    m.hostLoadFaults address = true ↔ GuestMemory.read m address 1 = none := by
  rw [hostLoadFaults, Bool.not_eq_true', ← Bool.not_eq_true, h.read_iff, ← validAccess_one]
  change _ ↔ (if _ then _ else _) = _
  split <;> simp_all

lemma HostFollows.store_iff (h : m.HostFollows) (address : UInt32) (byte : UInt8) :
    m.hostStoreFaults address = true ↔ (GuestMemory.write m address [byte]).1 = false := by
  rw [hostStoreFaults, Bool.not_eq_true', ← Bool.not_eq_true, h.write_iff, ← validAccess_one]
  have hwrite : (GuestMemory.write m address [byte]).1 = m.validAccess address 1 .write := by
    change Prod.fst (if m.validAccess address 1 .write then _ else _) = _
    split <;> simp_all
  rw [hwrite, Bool.not_eq_true]

/-- **Direct accesses and callbacks enforce the same permissions**: after any
sequence of page operations and for any pattern of failing host calls, an
unmapped page is inaccessible on the host, a mapped one is readable and
writable as its guest permissions say and never executable, and a direct load
or store faults exactly when `read` or `write` of that byte fails. -/
theorem fastmem_matches_callbacks (pageSize : ℕ) (host : ℕ → HostCall → Bool)
    (hdvd : pageSize ∣ 2 ^ 32) (calls : List PageCall) :
    ∀ m, m = (create pageSize host hdvd).calls calls →
      (∀ page,
        (¬m.Mapped page → m.hostProtection page = .none)
          ∧ (m.Mapped page →
              (m.hostProtection page).read
                  = hasPermission (decodePermissions (m.pageState page)) .read
                ∧ (m.hostProtection page).write
                  = hasPermission (decodePermissions (m.pageState page)) .write
                ∧ (m.hostProtection page).execute = false))
        ∧ ∀ address,
            (m.hostLoadFaults address = true ↔ GuestMemory.read m address 1 = none)
              ∧ ∀ byte, m.hostStoreFaults address = true
                  ↔ (GuestMemory.write m address [byte]).1 = false := by
  rintro m rfl
  have h := (create_hostFollows pageSize host hdvd).calls calls
  refine ⟨fun page => ⟨fun hm => ?_, fun hm => ?_⟩, fun address =>
    ⟨h.load_iff address, h.store_iff address⟩⟩
  · exact h.unmapped hm
  · rw [h.mapped hm]
    exact ⟨hostProtectionOf_read (h.valid page hm), rfl, rfl⟩

/-- Two pages are mapped, the `mprotect` of a `protect` fails, and one page is
unmapped: the first stays writable, the second is gone. -/
theorem fastmem_matches_callbacks_pages :
    let host : ℕ → HostCall → Bool := fun _ call => call ≠ .protectMprotect
    let m := (create 4096 host fourKiB_dvd).calls
      [.map 0x1000 0x2000 (.read ||| .write), .protect 0x1000 0x1000 .read, .unmap 0x2000 0x1000]
    (GuestMemory.write m 0x1004 [7]).1 = true ∧ m.hostStoreFaults 0x1004 = false
      ∧ m.hostLoadFaults 0x2000 = true ∧ GuestMemory.read m 0x2000 1 = none := by
  intro host m
  have h := (fastmem_matches_callbacks 4096 host fourKiB_dvd _ m rfl).2
  exact ⟨by decide +kernel, by decide +kernel, by decide +kernel,
    (h 0x2000).1.mp (by decide +kernel)⟩

end MappedGuestMemory

end LibA32Android

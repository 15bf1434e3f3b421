/-
The `__android_log_write` service (`compat/a32_android_log_write.h`, `.cpp`).

* `readGuestCString`: a string of the guest, byte by byte up to its terminator, the limit,
  a byte that cannot be read or the end of the address space;
* `A32AndroidLogWriteService.program`: the tag in r1, the text in r2, one call of the sink,
  its result in r0, as a program over the memory interface; `handle`: the service on a memory;
* `GuestCString`: what a string of the guest is, and `readGuestCString_run`;
* `log_write`: the sink is called once, with the two strings, or nothing happens.
-/
import LibA32Android.Runtime.DispatchSimulation

namespace LibA32Android

open Foundations

variable {M S : Type} [GuestMemory M]

/-! ### The service -/

namespace CoreRegisters

/-- `regs[0]`. -/
def r0 (regs : CoreRegisters) : UInt32 := regs.get 0

/-- `regs[1]`. -/
def r1 (regs : CoreRegisters) : UInt32 := regs.get 1

/-- `regs[2]`. -/
def r2 (regs : CoreRegisters) : UInt32 := regs.get 2

lemma r0_index : 0 < 16 := by decide

/-- `regs[0] = value`. -/
def setR0 (regs : CoreRegisters) (value : UInt32) : CoreRegisters := regs.set 0 value r0_index

end CoreRegisters

/-- `memory.read(address, byte)` with a buffer of one zero byte. -/
def readByte (address : UInt32) : MemoryProgram (Option UInt8) := do
  let bytes ← MemoryProgram.read address 1
  return bytes.map fun bytes => bytes.getD 0 0

/-- The loop of `read_guest_c_string`; an offset that is gone on from is one of an address
of the guest, so there are at most `2 ^ 32` rounds. -/
def readCStringFrom (address : UInt32) (maxPayloadBytes offset : ℕ) (output : ByteString) :
    MemoryProgram (Option ByteString) :=
  if offset > 0xffffffff - address.toNat then .done none
  else do
    match ← readByte (address + UInt32.ofNat offset) with
    | none => return none
    | some byte =>
      if byte = 0 then return some output
      else if offset = maxPayloadBytes then return none
      else readCStringFrom address maxPayloadBytes (offset + 1) (output ++ [byte])
termination_by 2 ^ 32 - offset
decreasing_by omega

/-- `read_guest_c_string`. -/
def readGuestCString (address : UInt32) (maxPayloadBytes : ℕ) :
    MemoryProgram (Option ByteString) :=
  readCStringFrom address maxPayloadBytes 0 []

/-- `A32AndroidLogWriteOptions`. -/
structure A32AndroidLogWriteOptions where
  maxTagBytes : ℕ
  maxTextBytes : ℕ
  deriving DecidableEq, Repr

/-- `A32AndroidLogSink`, with states in `S`; a tag that is `none` is a null pointer. -/
structure A32AndroidLogSink (S : Type) where
  write : S → Int32 → Option ByteString → ByteString → Int32 × S

/-- `A32AndroidLogWriteService`. -/
structure A32AndroidLogWriteService (S : Type) where
  svcImmediate : UInt32
  sink : A32AndroidLogSink S
  options : A32AndroidLogWriteOptions

namespace A32AndroidLogWriteService

/-- The tag: a null pointer stays one. -/
def readTag (service : A32AndroidLogWriteService S) (tagAddress : UInt32) :
    MemoryProgram (Option (Option ByteString)) :=
  if tagAddress ≠ 0 then do
    let tag ← readGuestCString tagAddress service.options.maxTagBytes
    return tag.map some
  else .done (some none)

/-- The text: a null pointer is not a string. -/
def readText (service : A32AndroidLogWriteService S) (textAddress : UInt32) :
    MemoryProgram (Option ByteString) :=
  if textAddress = 0 then .done none
  else readGuestCString textAddress service.options.maxTextBytes

/-- `A32AndroidLogWriteService::handle`, with the calls of its `GuestMemory&`. -/
def program (service : A32AndroidLogWriteService S) : ServiceProgram S where
  handle state svcImmediate regs cpsr :=
    if svcImmediate ≠ service.svcImmediate then .done ⟨.unhandled, state, regs, cpsr⟩
    else do
      match ← service.readTag regs.r1 with
      | none => return ⟨.failed, state, regs, cpsr⟩
      | some tag =>
        match ← service.readText regs.r2 with
        | none => return ⟨.failed, state, regs, cpsr⟩
        | some text =>
          let (result, state) := service.sink.write state regs.r0.toInt32 tag text
          return ⟨.handled, state, regs.setR0 result.toUInt32, cpsr⟩

/-- The service as a handler of the dispatcher. -/
def handler (service : A32AndroidLogWriteService S) : A32HostServiceHandler S M :=
  service.program.on M

/-- `A32AndroidLogWriteService::handle` on a memory. -/
def handle (service : A32AndroidLogWriteService S) (state : S) (memory : M)
    (svcImmediate : UInt32) (regs : CoreRegisters) (cpsr : UInt32) : ServiceReply S M :=
  service.handler.handle state memory svcImmediate regs cpsr

end A32AndroidLogWriteService

/-! ### Strings of the guest -/

/-- The byte that a read at an address of the guest delivers. -/
def guestByte (memory : M) (x : ℕ) : Option UInt8 :=
  (GuestMemory.read memory (UInt32.ofNat x) 1).map fun bytes => bytes.getD 0 0

/-- The string at `start`: its bytes are readable and not zero, a readable zero follows
within the limit, and all that lies in the address space. -/
structure GuestCString (memory : M) (start limit : ℕ) (string : ByteString) : Prop where
  length_le : string.length ≤ limit
  fits : start + string.length ≤ 0xffffffff
  payload : ∀ i (h : i < string.length), guestByte memory (start + i) = some string[i]
  nonzero : 0 ∉ string
  terminator : guestByte memory (start + string.length) = some 0

section Strings

variable {memory : M} {start limit : ℕ} {byte : UInt8} {string : ByteString}

lemma guestCString_nil : GuestCString memory start limit []
    ↔ start ≤ 0xffffffff ∧ guestByte memory start = some 0 :=
  ⟨fun h => ⟨h.fits, h.terminator⟩, fun h => ⟨Nat.zero_le _, h.1,
    fun _ hi => absurd hi (Nat.not_lt_zero _), List.not_mem_nil, h.2⟩⟩

lemma guestCString_cons : GuestCString memory start (limit + 1) (byte :: string)
    ↔ guestByte memory start = some byte ∧ byte ≠ 0
      ∧ GuestCString memory (start + 1) limit string := by
  constructor
  · intro h
    have hlength := h.length_le
    have hfits := h.fits
    have hnonzero := h.nonzero
    simp only [List.length_cons] at hlength hfits
    simp only [List.mem_cons, not_or] at hnonzero
    refine ⟨h.payload 0 (Nat.succ_pos _), Ne.symm hnonzero.1, by omega, by omega, ?_,
      hnonzero.2, ?_⟩
    · intro i hi
      rw [Nat.add_assoc, Nat.add_comm 1 i]
      exact h.payload (i + 1) (Nat.succ_lt_succ hi)
    · rw [Nat.add_assoc, Nat.add_comm 1]
      exact h.terminator
  · rintro ⟨hbyte, hne, h⟩
    have hlength := h.length_le
    have hfits := h.fits
    refine ⟨by simpa using hlength, by simp only [List.length_cons]; omega, ?_, ?_, ?_⟩
    · rintro (_ | i) hi
      · exact hbyte
      · have hpayload := h.payload i (Nat.lt_of_succ_lt_succ hi)
        rwa [Nat.add_assoc, Nat.add_comm 1 i] at hpayload
    · simp only [List.mem_cons, not_or]
      exact ⟨hne.symm, h.nonzero⟩
    · rw [List.length_cons, Nat.add_comm string.length 1, ← Nat.add_assoc]
      exact h.terminator

/-- Only the empty string starts with the terminator. -/
lemma GuestCString.eq_nil (h : GuestCString memory start limit string)
    (hzero : guestByte memory start = some 0) : string = [] := by
  cases string with
  | nil => rfl
  | cons byte rest =>
    have hbyte : guestByte memory start = some byte := h.payload 0 (Nat.succ_pos _)
    have hne : (0 : UInt8) ≠ byte := fun heq => h.nonzero (heq ▸ List.mem_cons_self)
    rw [hzero, Option.some_inj] at hbyte
    exact absurd hbyte hne

/-- A string whose place begins with another byte begins with that byte. -/
lemma GuestCString.eq_cons (h : GuestCString memory start limit string)
    (hbyte : guestByte memory start = some byte) (hne : byte ≠ 0) :
    ∃ rest, string = byte :: rest := by
  cases string with
  | nil =>
    have hzero := (guestCString_nil.mp h).2
    rw [hbyte, Option.some_inj] at hzero
    exact absurd hzero hne
  | cons first rest =>
    have hfirst : guestByte memory start = some first := h.payload 0 (Nat.succ_pos _)
    rw [hbyte, Option.some_inj] at hfirst
    exact ⟨rest, by rw [hfirst]⟩

/-- The first byte of a string, or its terminator, is readable. -/
lemma GuestCString.readable (h : GuestCString memory start limit string) :
    guestByte memory start ≠ none := by
  cases string with
  | nil => rw [(guestCString_nil.mp h).2]; exact Option.some_ne_none 0
  | cons byte rest =>
    have hbyte : guestByte memory start = some byte := h.payload 0 (Nat.succ_pos _)
    rw [hbyte]
    exact Option.some_ne_none byte

/-- What is read already, and the string that begins at `start`. -/
def StringFrom (memory : M) (start limit : ℕ) (output string : ByteString) : Prop :=
  ∃ rest, string = output ++ rest ∧ GuestCString memory start limit rest

section From

variable {output : ByteString}

lemma not_stringFrom_of_lt (h : 0xffffffff < start) :
    ¬StringFrom memory start limit output string := by
  rintro ⟨rest, -, hrest⟩
  have hfits := hrest.fits
  omega

lemma not_stringFrom_of_none (h : guestByte memory start = none) :
    ¬StringFrom memory start limit output string := by
  rintro ⟨rest, -, hrest⟩
  exact hrest.readable h

/-- At the terminator all is read. -/
lemma stringFrom_iff_of_zero (hstart : start ≤ 0xffffffff) (h : guestByte memory start = some 0) :
    StringFrom memory start limit output string ↔ string = output := by
  constructor
  · rintro ⟨rest, rfl, hrest⟩
    rw [hrest.eq_nil h, List.append_nil]
  · rintro rfl
    exact ⟨[], (List.append_nil _).symm, guestCString_nil.mpr ⟨hstart, h⟩⟩

/-- At the limit only the terminator would do. -/
lemma not_stringFrom_of_limit (h : guestByte memory start = some byte) (hne : byte ≠ 0) :
    ¬StringFrom memory start 0 output string := by
  rintro ⟨rest, -, hrest⟩
  obtain ⟨rest, rfl⟩ := hrest.eq_cons h hne
  exact absurd hrest.length_le (Nat.not_succ_le_zero _)

/-- Another byte is read. -/
lemma stringFrom_succ_iff (h : guestByte memory start = some byte) (hne : byte ≠ 0) :
    StringFrom memory start (limit + 1) output string
      ↔ StringFrom memory (start + 1) limit (output ++ [byte]) string := by
  constructor
  · rintro ⟨rest, rfl, hrest⟩
    obtain ⟨rest, rfl⟩ := hrest.eq_cons h hne
    exact ⟨rest, by simp, (guestCString_cons.mp hrest).2.2⟩
  · rintro ⟨rest, rfl, hrest⟩
    exact ⟨byte :: rest, by simp, guestCString_cons.mpr ⟨h, hne, hrest⟩⟩

end From

lemma readByte_run (memory : M) (address : UInt32) (offset : ℕ) :
    (readByte (address + UInt32.ofNat offset)).run MemoryCall.respond memory
      = (guestByte memory (address.toNat + offset), memory) := by
  rw [guestByte, UInt32.ofNat_add, UInt32.ofNat_toNat]
  rfl

/-- **The loop of `read_guest_c_string`** delivers the string from its offset on, and leaves
the memory as it is. -/
lemma readCStringFrom_run (memory : M) (address : UInt32) {offset : ℕ} (output : ByteString)
    (hoffset : offset ≤ limit) :
    ∃ found, (readCStringFrom address limit offset output).run MemoryCall.respond memory
        = (found, memory)
      ∧ ∀ string, found = some string
        ↔ StringFrom memory (address.toNat + offset) (limit - offset) output string := by
  have haddress := address.toNat_lt
  fun_induction readCStringFrom address limit offset output with
  | case1 offset output hbeyond =>
    exact ⟨none, rfl, fun string => iff_of_false (Option.some_ne_none _ ·.symm)
      (not_stringFrom_of_lt (by omega))⟩
  | case2 offset output hwithin ih =>
    rw [Interaction.run_bind, readByte_run]
    cases hbyte : guestByte memory (address.toNat + offset) with
    | none =>
      exact ⟨none, rfl, fun string => iff_of_false (Option.some_ne_none _ ·.symm)
        (not_stringFrom_of_none hbyte)⟩
    | some byte =>
      dsimp only
      by_cases hzero : byte = 0
      · subst hzero
        refine ⟨some output, rfl, fun string => ?_⟩
        rw [stringFrom_iff_of_zero (by omega) hbyte, Option.some_inj, eq_comm]
      rw [if_neg hzero]
      by_cases hlimit : offset = limit
      · rw [if_pos hlimit, hlimit, Nat.sub_self]
        rw [hlimit] at hbyte
        exact ⟨none, rfl, fun string => iff_of_false (Option.some_ne_none _ ·.symm)
          (not_stringFrom_of_limit hbyte hzero)⟩
      · rw [if_neg hlimit]
        obtain ⟨found, hrun, hfound⟩ := ih byte hlimit (by omega)
        refine ⟨found, hrun, fun string => (hfound string).trans ?_⟩
        rw [show limit - offset = limit - (offset + 1) + 1 by omega,
          stringFrom_succ_iff hbyte hzero, Nat.add_assoc]

/-- `read_guest_c_string` delivers the string at its address, and fails if there is none. -/
lemma readGuestCString_run (memory : M) (address : UInt32) (limit : ℕ) :
    ∃ found, (readGuestCString address limit).run MemoryCall.respond memory = (found, memory)
      ∧ ∀ string, found = some string ↔ GuestCString memory address.toNat limit string := by
  obtain ⟨found, hrun, hfound⟩ := readCStringFrom_run memory address [] (Nat.zero_le limit)
  refine ⟨found, hrun, fun string => ?_⟩
  rw [hfound, StringFrom]
  simp only [List.nil_append, exists_eq_left', Nat.add_zero, Nat.sub_zero]

end Strings

/-! ### One call of the sink, or none -/

/-- One call of `A32AndroidLogSink::write`. -/
structure LogCall where
  priority : Int32
  tag : Option ByteString
  text : ByteString

/-- The sink with a list of the calls it got. -/
def A32AndroidLogSink.recording (sink : A32AndroidLogSink S) :
    A32AndroidLogSink (S × List LogCall) where
  write state priority tag text :=
    let (result, next) := sink.write state.1 priority tag text
    (result, next, state.2 ++ [⟨priority, tag, text⟩])

/-- A tag of the guest: no string for the null pointer, and the string there otherwise. -/
def GuestTag (memory : M) (address : UInt32) (limit : ℕ) : Option ByteString → Prop
  | none => address = 0
  | some string => address ≠ 0 ∧ GuestCString memory address.toNat limit string

namespace A32AndroidLogWriteService

/-- The arguments that r1 and r2 stand for. -/
structure Arguments (service : A32AndroidLogWriteService S) (memory : M)
    (regs : CoreRegisters) (tag : Option ByteString) (text : ByteString) : Prop where
  tag : GuestTag memory regs.r1 service.options.maxTagBytes tag
  text_ne_null : regs.r2 ≠ 0
  text : GuestCString memory regs.r2.toNat service.options.maxTextBytes text

/-- The service with the recording sink in its sink's place. -/
def recording (service : A32AndroidLogWriteService S) :
    A32AndroidLogWriteService (S × List LogCall) :=
  ⟨service.svcImmediate, service.sink.recording, service.options⟩

/-- The calls that the sink gets while the service handles its own immediate. -/
def calls (service : A32AndroidLogWriteService S) (state : S) (memory : M)
    (regs : CoreRegisters) (cpsr : UInt32) : List LogCall :=
  (service.recording.handle (state, []) memory service.recording.svcImmediate regs
    cpsr).handlerState.2

variable {service : A32AndroidLogWriteService S} {memory : M} {regs : CoreRegisters}
  {tag : Option ByteString} {text : ByteString}

lemma readTag_run (service : A32AndroidLogWriteService S) (memory : M) (address : UInt32) :
    ∃ found, (service.readTag address).run MemoryCall.respond memory = (found, memory)
      ∧ ∀ tag, found = some tag ↔ GuestTag memory address service.options.maxTagBytes tag := by
  by_cases hnull : address = 0
  · refine ⟨some none, by rw [readTag, if_neg (not_not.mpr hnull)]; rfl, fun tag => ?_⟩
    cases tag <;> simp [GuestTag, hnull]
  · obtain ⟨found, hrun, hfound⟩ :=
      readGuestCString_run memory address service.options.maxTagBytes
    refine ⟨found.map some, ?_, fun tag => ?_⟩
    · rw [readTag, if_pos hnull, Interaction.run_bind, hrun]
      rfl
    · cases tag <;> simp [GuestTag, hnull, ← hfound]

lemma readText_run (service : A32AndroidLogWriteService S) (memory : M) (address : UInt32) :
    ∃ found, (service.readText address).run MemoryCall.respond memory = (found, memory)
      ∧ ∀ text, found = some text
        ↔ address ≠ 0 ∧ GuestCString memory address.toNat service.options.maxTextBytes text := by
  by_cases hnull : address = 0
  · exact ⟨none, by rw [readText, if_pos hnull]; rfl, fun text => by simp [hnull]⟩
  · obtain ⟨found, hrun, hfound⟩ :=
      readGuestCString_run memory address service.options.maxTextBytes
    refine ⟨found, by rw [readText, if_neg hnull, hrun], fun text => ?_⟩
    rw [hfound, and_iff_right hnull]

/-- The immediate of another service is left to that. -/
lemma handle_of_ne {immediate : UInt32} (h : immediate ≠ service.svcImmediate) (state : S)
    (cpsr : UInt32) : service.handle state memory immediate regs cpsr
      = ⟨.unhandled, state, memory, regs, cpsr⟩ := by
  rw [handle, handler, ServiceProgram.on, ServiceProgram.against]
  dsimp only [program]
  rw [if_pos h]
  rfl

/-- The service reads the two arguments, and calls the sink if it has got both. -/
lemma handle_eq (service : A32AndroidLogWriteService S) (state : S) (memory : M)
    (regs : CoreRegisters) (cpsr : UInt32) : ∃ tag text,
      (∀ string, tag = some string ↔ GuestTag memory regs.r1 service.options.maxTagBytes string)
      ∧ (∀ string, text = some string
        ↔ regs.r2 ≠ 0 ∧ GuestCString memory regs.r2.toNat service.options.maxTextBytes string)
      ∧ service.handle state memory service.svcImmediate regs cpsr
        = match tag, text with
          | some tag, some text =>
            ⟨.handled, (service.sink.write state regs.r0.toInt32 tag text).2, memory,
              regs.setR0 (service.sink.write state regs.r0.toInt32 tag text).1.toUInt32, cpsr⟩
          | _, _ => ⟨.failed, state, memory, regs, cpsr⟩ := by
  obtain ⟨tag, htagRun, htag⟩ := service.readTag_run memory regs.r1
  obtain ⟨text, htextRun, htext⟩ := service.readText_run memory regs.r2
  refine ⟨tag, text, htag, htext, ?_⟩
  rw [handle, handler, ServiceProgram.on, ServiceProgram.against]
  dsimp only [program]
  rw [if_neg (not_not.mpr rfl), Interaction.run_bind, htagRun]
  cases tag with
  | none => rfl
  | some tag =>
    dsimp only
    rw [Interaction.run_bind, htextRun]
    cases text with
    | none => rfl
    | some text => rfl

lemma handle_of_arguments (h : service.Arguments memory regs tag text) (state : S)
    (cpsr : UInt32) : service.handle state memory service.svcImmediate regs cpsr
      = ⟨.handled, (service.sink.write state regs.r0.toInt32 tag text).2, memory,
          regs.setR0 (service.sink.write state regs.r0.toInt32 tag text).1.toUInt32, cpsr⟩ := by
  obtain ⟨found, string, hfound, hstring, hreply⟩ := service.handle_eq state memory regs cpsr
  rw [hreply, (hfound tag).mpr h.tag, (hstring text).mpr ⟨h.text_ne_null, h.text⟩]

lemma handle_of_not_arguments (h : ¬∃ tag text, service.Arguments memory regs tag text)
    (state : S) (cpsr : UInt32) : service.handle state memory service.svcImmediate regs cpsr
      = ⟨.failed, state, memory, regs, cpsr⟩ := by
  obtain ⟨tag, text, htag, htext, hreply⟩ := service.handle_eq state memory regs cpsr
  rw [hreply]
  cases tag with
  | none => rfl
  | some tag =>
    cases text with
    | none => rfl
    | some text =>
      obtain ⟨hne, hstring⟩ := (htext text).mp rfl
      exact absurd ⟨tag, text, (htag tag).mp rfl, hne, hstring⟩ h

/-- The arguments do not depend on the sink. -/
lemma recording_arguments : service.recording.Arguments memory regs tag text
    ↔ service.Arguments memory regs tag text :=
  ⟨fun h => ⟨h.tag, h.text_ne_null, h.text⟩, fun h => ⟨h.tag, h.text_ne_null, h.text⟩⟩

/-- What the service asks of the registers, without naming the strings. -/
lemma exists_arguments_iff : (∃ tag text, service.Arguments memory regs tag text)
    ↔ regs.r2 ≠ 0
      ∧ (∃ text, GuestCString memory regs.r2.toNat service.options.maxTextBytes text)
      ∧ (regs.r1 ≠ 0 →
        ∃ tag, GuestCString memory regs.r1.toNat service.options.maxTagBytes tag) := by
  constructor
  · rintro ⟨tag, text, h⟩
    refine ⟨h.text_ne_null, ⟨text, h.text⟩, fun hne => ?_⟩
    cases tag with
    | none => exact absurd h.tag hne
    | some tag => exact ⟨tag, h.tag.2⟩
  · rintro ⟨hne, ⟨text, htext⟩, htag⟩
    by_cases hnull : regs.r1 = 0
    · exact ⟨none, text, hnull, hne, htext⟩
    · obtain ⟨tag, htag⟩ := htag hnull
      exact ⟨some tag, text, ⟨hnull, htag⟩, hne, htext⟩

end A32AndroidLogWriteService

open A32AndroidLogWriteService in
/-- **The log-write service copies the strings of the guest exactly, or not at all**: its
immediate is handled if and only if r2, and r1 unless it is null, point at strings within
the limits. The sink then gets one call, with r0 and the two strings, and r0 its result;
otherwise the service fails, the sink gets no call, and nothing changes. -/
theorem log_write (service : A32AndroidLogWriteService S) (state : S) (memory : M)
    (regs : CoreRegisters) (cpsr : UInt32) :
    let reply := service.handle state memory service.svcImmediate regs cpsr
    (reply.disposition = .handled ↔ regs.r2 ≠ 0
      ∧ (∃ text, GuestCString memory regs.r2.toNat service.options.maxTextBytes text)
      ∧ (regs.r1 ≠ 0 →
        ∃ tag, GuestCString memory regs.r1.toNat service.options.maxTagBytes tag))
    ∧ (reply.disposition = .handled → ∃ tag text, service.Arguments memory regs tag text
      ∧ service.calls state memory regs cpsr = [⟨regs.r0.toInt32, tag, text⟩]
      ∧ reply = ⟨.handled, (service.sink.write state regs.r0.toInt32 tag text).2, memory,
          regs.setR0 (service.sink.write state regs.r0.toInt32 tag text).1.toUInt32, cpsr⟩)
    ∧ (reply.disposition ≠ .handled → service.calls state memory regs cpsr = []
      ∧ reply = ⟨.failed, state, memory, regs, cpsr⟩) := by
  intro reply
  rw [← exists_arguments_iff]
  by_cases h : ∃ tag text, service.Arguments memory regs tag text
  · obtain ⟨tag, text, harguments⟩ := h
    have hreply := handle_of_arguments harguments state cpsr
    have hhandled : reply.disposition = .handled := congrArg ServiceReply.disposition hreply
    refine ⟨iff_of_true hhandled ⟨tag, text, harguments⟩,
      fun _ => ⟨tag, text, harguments, ?_, hreply⟩, absurd hhandled⟩
    rw [calls, handle_of_arguments (recording_arguments.mpr harguments)]
    rfl
  · have hreply := handle_of_not_arguments h state cpsr
    have hfailed : reply.disposition = .failed := congrArg ServiceReply.disposition hreply
    have hne : reply.disposition ≠ .handled := by rw [hfailed]; decide
    refine ⟨iff_of_false hne h, fun hhandled => absurd hhandled hne, fun _ => ⟨?_, hreply⟩⟩
    have hrecording : ¬∃ tag text, service.recording.Arguments memory regs tag text := by
      simpa only [recording_arguments] using h
    rw [calls, handle_of_not_arguments hrecording]

end LibA32Android

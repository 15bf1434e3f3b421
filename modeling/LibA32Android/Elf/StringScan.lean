/-
What an entry of a readable string table is.

`readElf32StringTableEntry` reads the table in chunks whose sizes depend on the
limit.  When the whole table may be read, the chunks do not show: the outcome is
that of one byte loop over the rest of the table.

* `scanChunk_append`: the byte loop over two chunks;
* `readElf32StringTableEntry_scan`: the outcome as one byte loop;
* `scanChunk_limit`: a terminated entry under every larger limit;
* `entryOf`: an entry by its bytes alone, and `readElf32StringTableEntry_eq_entryOf`,
  `string_entry`: what is read is that entry.
-/
import LibA32Android.Elf.LinkerStrings

namespace LibA32Android

open Foundations QueryProgram

/-- The outcome of an entry whose table ends behind the bytes of the loop. -/
def ChunkScan.outcome : ChunkScan → Except Elf32LinkerStringError ByteString
  | .terminated value => .ok value
  | .tooLong => .error .stringTooLong
  | .more _ => .error .unterminatedString

lemma ChunkScan.outcome_eq_ok {scan : ChunkScan} {string : ByteString} :
    scan.outcome = .ok string ↔ scan = .terminated string := by
  cases scan <;> simp [ChunkScan.outcome]

section Scan

variable {maxStringBytes : ℕ}

/-- The byte loop over two chunks goes on in the second one where the first one ends. -/
lemma scanChunk_append (l l' : List UInt8) (position : ℕ) (value : ByteString) :
    scanChunk maxStringBytes (l ++ l') position value
      = match scanChunk maxStringBytes l position value with
        | .terminated value => .terminated value
        | .tooLong => .tooLong
        | .more value => scanChunk maxStringBytes l' (position + l.length) value := by
  induction l generalizing position value with
  | nil => rfl
  | cons byte l ih =>
      rw [List.cons_append, scanChunk, scanChunk]
      by_cases hzero : byte = 0
      · rw [if_pos hzero, if_pos hzero]
      · rw [if_neg hzero, if_neg hzero]
        by_cases hlong : position ≥ maxStringBytes
        · rw [if_pos hlong, if_pos hlong]
        · rw [if_neg hlong, if_neg hlong, ih, List.length_cons, Nat.add_right_comm position 1,
            Nat.add_assoc position]

/-- Only positions below the limit are passed. -/
lemma scanChunk_more {l : List UInt8} {position : ℕ} {value value' : ByteString}
    (h : scanChunk maxStringBytes l position value = .more value')
    (hposition : position ≤ maxStringBytes) : position + l.length ≤ maxStringBytes := by
  induction l generalizing position value with
  | nil => exact hposition
  | cons byte l ih =>
      rw [scanChunk] at h
      split at h
      · exact nomatch h
      · split at h
        · exact nomatch h
        · have := ih h (by omega)
          rw [List.length_cons]
          omega

/-- A terminated string is the same under every larger limit. -/
lemma scanChunk_limit {limit : ℕ} (hle : maxStringBytes ≤ limit) {l : List UInt8} {position : ℕ}
    {value string : ByteString}
    (h : scanChunk maxStringBytes l position value = .terminated string) :
    scanChunk limit l position value = .terminated string := by
  induction l generalizing position value with
  | nil => exact nomatch h
  | cons byte l ih =>
      rw [scanChunk] at h ⊢
      split at h
      · rw [if_pos ‹_›, h]
      · split at h
        · exact nomatch h
        · rw [if_neg ‹_›, if_neg (by omega)]
          exact ih h

/-- The entry at the start of a list of bytes: the bytes before the first 0, if the list
holds one behind at most `limit` others. -/
def entryOf (limit : ℕ) (bytes : List UInt8) : Except Elf32LinkerStringError ByteString :=
  if limit < (bytes.takeWhile (· ≠ 0)).length then .error .stringTooLong
  else if bytes.takeWhile (· ≠ 0) = bytes then .error .unterminatedString
  else .ok (bytes.takeWhile (· ≠ 0))

lemma scanChunk_outcome {l : List UInt8} {position : ℕ} (value : ByteString)
    (hposition : position ≤ maxStringBytes) :
    (scanChunk maxStringBytes l position value).outcome
      = (entryOf (maxStringBytes - position) l).map (value ++ ·) := by
  induction l generalizing position value with
  | nil => rfl
  | cons byte l ih =>
      rw [scanChunk, entryOf]
      by_cases hzero : byte = 0
      · simp [hzero, ChunkScan.outcome, Except.map]
      rw [if_neg hzero, List.takeWhile_cons_of_pos (by simpa using hzero), List.length_cons]
      by_cases hlong : position ≥ maxStringBytes
      · rw [if_pos hlong, if_pos (by omega)]
        rfl
      rw [if_neg hlong, ih _ (by omega), entryOf]
      by_cases hlimit : maxStringBytes - (position + 1) < (l.takeWhile (· ≠ 0)).length
      · rw [if_pos hlimit, if_pos (by omega)]
        rfl
      have hlimit' : ¬maxStringBytes - position < (l.takeWhile (· ≠ 0)).length + 1 := by omega
      rw [if_neg hlimit, if_neg hlimit']
      by_cases hend : l.takeWhile (· ≠ 0) = l
      · rw [if_pos hend, if_pos (congrArg (byte :: ·) hend)]
        rfl
      · rw [if_neg hend, if_neg fun h => hend (List.cons.inj h).2]
        simp [Except.map]

end Scan

variable {m : MappedGuestMemory}

/-- Behind the last byte of the table nothing is left to scan. -/
lemma endOfString_scan {start remaining maxStringBytes inspected : ℕ} (value : ByteString)
    (h : remaining ≤ inspected) :
    (endOfString inspected remaining : GuestRead Elf32LinkerStringError ByteString).under
        (GuestMemory.reads m)
      = (scanChunk maxStringBytes (window m.reservation (start + inspected) (remaining - inspected))
          inspected value).outcome := by
  rw [Nat.sub_eq_zero_of_le h, window_zero, endOfString, if_pos h]
  rfl

/-- The chunk loop in a readable rest of a table, as one byte loop.  The induction is on the
rounds left: a chunk without a terminator ends at or below the limit, so the loop
ends only with the table. -/
lemma readStringChunks_scan {start remaining maxStringBytes : ℕ} (h : m.Readable start remaining)
    {rounds inspected : ℕ} (value : ByteString) (hinspected : inspected ≤ maxStringBytes)
    (hrounds : min remaining (maxStringBytes + 1) ≤ inspected + rounds) :
    (readStringChunks start remaining maxStringBytes rounds inspected value).under
        (GuestMemory.reads m)
      = (scanChunk maxStringBytes (window m.reservation (start + inspected) (remaining - inspected))
          inspected value).outcome := by
  have hspace := h.1
  induction rounds generalizing inspected value with
  | zero => exact endOfString_scan value (by omega)
  | succ rounds ih =>
      rw [readStringChunks]
      by_cases hmore : inspected < remaining
      · rw [if_pos ⟨hmore, by omega⟩]
        dsimp only
        generalize hchunk : min 256 (min (remaining - inspected) (maxStringBytes + 1 - inspected))
          = chunk
        have hsplit : remaining - inspected = chunk + (remaining - (inspected + chunk)) := by omega
        rw [under_bind, under_reject, refuse_neg (by omega), ok_bind, under_bind, readBytes,
          under_query, ok_bind, h.read (Nat.le_add_right _ _) (by omega) (by omega), hsplit,
          window_add, scanChunk_append]
        dsimp only
        cases hscan : scanChunk maxStringBytes (window m.reservation (start + inspected) chunk)
            inspected value with
        | terminated string => rfl
        | tooLong => rfl
        | more value' =>
            have hpassed := scanChunk_more hscan hinspected
            rw [window_length] at hpassed ⊢
            rw [Nat.add_assoc start]
            exact ih value' hpassed (by omega)
      · rw [if_neg (fun hlt => hmore hlt.1)]
        exact endOfString_scan value (Nat.not_lt.mp hmore)

/-- **An entry of a readable table** is what one byte loop over the rest of the table
finds. -/
lemma readElf32StringTableEntry_scan {table : Elf32StringTableMetadata} {offset : UInt32}
    (options : Elf32LinkerStringOptions)
    (h : m.Readable table.guestAddress.toNat table.size.toNat) (hoffset : offset < table.size) :
    (readElf32StringTableEntry table offset options).under (GuestMemory.reads m)
      = (scanChunk options.maxStringBytes.toNat
          (window m.reservation (table.guestAddress.toNat + offset.toNat)
            (table.size.toNat - offset.toNat)) 0 []).outcome := by
  have hlt : offset.toNat < table.size.toNat := hoffset
  have hspace := h.1
  rw [readElf32StringTableEntry, under_bind, under_reject,
    refuse_neg (UInt32.not_le.mpr hoffset), ok_bind]
  dsimp only
  rw [under_bind, under_reject, refuse_neg (by omega), ok_bind,
    readStringChunks_scan (h.sub (Nat.le_add_right _ _) (by omega)) [] (Nat.zero_le _) (by omega)]
  rfl

/-! ### Entries by their bytes -/

/-- **An entry of a readable table** is the entry at the start of the rest of the table. -/
lemma readElf32StringTableEntry_eq_entryOf {table : Elf32StringTableMetadata} {offset : UInt32}
    (options : Elf32LinkerStringOptions)
    (h : m.Readable table.guestAddress.toNat table.size.toNat) (hoffset : offset < table.size) :
    (readElf32StringTableEntry table offset options).under (GuestMemory.reads m)
      = entryOf options.maxStringBytes.toNat
          (window m.reservation (table.guestAddress.toNat + offset.toNat)
            (table.size.toNat - offset.toNat)) := by
  rw [readElf32StringTableEntry_scan options h hoffset, scanChunk_outcome [] (Nat.zero_le _),
    Nat.sub_zero]
  cases entryOf options.maxStringBytes.toNat _ with
  | error e => rfl
  | ok string => rfl

section Entry

variable {bytes : ℕ → UInt8} {start length k : ℕ}

lemma takeWhile_window_of_ne_zero (hk : k ≤ length) (h : ∀ i < k, bytes (start + i) ≠ 0) :
    (window bytes start length).takeWhile (· ≠ 0)
      = window bytes start k ++ (window bytes (start + k) (length - k)).takeWhile (· ≠ 0) := by
  obtain ⟨rest, rfl⟩ := Nat.exists_eq_add_of_le hk
  rw [Nat.add_sub_cancel_left, window_add]
  refine List.takeWhile_append_of_pos fun byte hbyte => ?_
  obtain ⟨i, hi, rfl⟩ := List.mem_map.mp hbyte
  exact decide_eq_true (h i (List.mem_range.mp hi))

/-- The bytes of a window up to its first 0. -/
lemma takeWhile_window_of_zero (hk : k < length) (hbefore : ∀ i < k, bytes (start + i) ≠ 0)
    (hzero : bytes (start + k) = 0) :
    (window bytes start length).takeWhile (· ≠ 0) = window bytes start k := by
  have hrest : length - k = 1 + (length - k - 1) := by omega
  have hone : window bytes (start + k) 1 = [0] := by simp [window, hzero]
  rw [takeWhile_window_of_ne_zero hk.le hbefore, hrest, window_add, hone, List.singleton_append,
    List.takeWhile_cons_of_neg (by simp), List.append_nil]

lemma entryOf_terminated {limit : ℕ} (hk : k < length) (hbefore : ∀ i < k, bytes (start + i) ≠ 0)
    (hzero : bytes (start + k) = 0) (hlimit : k ≤ limit) :
    entryOf limit (window bytes start length) = .ok (window bytes start k) := by
  have hlength : window bytes start k ≠ window bytes start length := fun h => by
    have := congrArg List.length h
    simp at this
    omega
  rw [entryOf, takeWhile_window_of_zero hk hbefore hzero, window_length,
    if_neg (Nat.not_lt.mpr hlimit), if_neg hlength]

lemma entryOf_tooLong {limit : ℕ} (hlimit : limit < length)
    (h : ∀ i ≤ limit, bytes (start + i) ≠ 0) :
    entryOf limit (window bytes start length) = .error .stringTooLong := by
  rw [entryOf, takeWhile_window_of_ne_zero hlimit fun i hi => h i (Nat.le_of_lt_succ hi)]
  refine if_pos ?_
  rw [List.length_append, window_length]
  omega

lemma entryOf_unterminated {limit : ℕ} (hlimit : length ≤ limit)
    (h : ∀ i < length, bytes (start + i) ≠ 0) :
    entryOf limit (window bytes start length) = .error .unterminatedString := by
  rw [entryOf, takeWhile_window_of_ne_zero le_rfl h, Nat.sub_self, window_zero,
    List.takeWhile_nil, List.append_nil, window_length, if_neg (Nat.not_lt.mpr hlimit), if_pos rfl]

/-- The only errors of an entry. -/
lemma entryOf_settled (limit : ℕ) (l : List UInt8) :
    Settled (· ∈ [.stringTooLong, .unterminatedString]) (entryOf limit l) := by
  intro e he
  rw [entryOf] at he
  split at he
  · cases he
    simp
  · split at he
    · cases he
      simp
    · cases he

end Entry

/-- **The chunks do not show.**  In a readable table that ends within the address space, with
an offset inside it and any limit, an entry is the bytes from the offset to the first 0, if
these are at most as many as the limit; it is too long if the limit and one more byte lie in
the table without a 0, and unterminated if the table ends within the limit without one.  No
other error comes up. -/
theorem string_entry {m : MappedGuestMemory} {table : Elf32StringTableMetadata} {offset : UInt32}
    (hreadable : m.Readable table.guestAddress.toNat table.size.toNat)
    (hoffset : offset < table.size) (limit : UInt32) :
    let byteAt := fun position => m.reservation (table.guestAddress.toNat + position)
    let outcome := (readElf32StringTableEntry table offset ⟨limit⟩).under (GuestMemory.reads m)
    (∀ p, offset.toNat ≤ p → p < table.size.toNat → byteAt p = 0 →
        (∀ q, offset.toNat ≤ q → q < p → byteAt q ≠ 0) → p - offset.toNat ≤ limit.toNat →
        outcome = .ok ((List.range (p - offset.toNat)).map fun i => byteAt (offset.toNat + i)))
    ∧ (offset.toNat + (limit.toNat + 1) ≤ table.size.toNat →
        (∀ q, offset.toNat ≤ q → q < offset.toNat + (limit.toNat + 1) → byteAt q ≠ 0) →
        outcome = .error .stringTooLong)
    ∧ ((∀ q, offset.toNat ≤ q → q < table.size.toNat → byteAt q ≠ 0) →
        table.size.toNat - offset.toNat ≤ limit.toNat → outcome = .error .unterminatedString)
    ∧ outcome ≠ .error .addressOverflow ∧ outcome ≠ .error .readFailed
    ∧ outcome = entryOf limit.toNat
        ((List.range (table.size.toNat - offset.toNat)).map fun i => byteAt (offset.toNat + i)) := by
  intro byteAt outcome
  have hlt : offset.toNat < table.size.toNat := hoffset
  have hwindow : ∀ n, (List.range n).map (fun i => byteAt (offset.toNat + i))
      = window m.reservation (table.guestAddress.toNat + offset.toNat) n := fun n => by
    simp only [window, byteAt, Nat.add_assoc]
  have houtcome : outcome = entryOf limit.toNat
      (window m.reservation (table.guestAddress.toNat + offset.toNat)
        (table.size.toNat - offset.toNat)) :=
    readElf32StringTableEntry_eq_entryOf ⟨limit⟩ hreadable hoffset
  have hbyte : ∀ i, m.reservation (table.guestAddress.toNat + offset.toNat + i)
      = byteAt (offset.toNat + i) := fun i => by rw [Nat.add_assoc]
  have hsettled := entryOf_settled limit.toNat
    (window m.reservation (table.guestAddress.toNat + offset.toNat)
      (table.size.toNat - offset.toNat))
  refine ⟨fun p hp hpsize hzero hbefore hlimit => ?_, fun hsize hnonzero => ?_,
    fun hnonzero hlimit => ?_, fun h => ?_, fun h => ?_, ?_⟩
  · rw [houtcome, hwindow]
    refine entryOf_terminated (by omega) (fun i hi => ?_) ?_ hlimit
    · rw [hbyte]
      exact hbefore _ (Nat.le_add_right _ _) (by omega)
    · rw [hbyte, Nat.add_sub_cancel' hp, hzero]
  · rw [houtcome]
    refine entryOf_tooLong (by omega) fun i hi => ?_
    rw [hbyte]
    exact hnonzero _ (Nat.le_add_right _ _) (by omega)
  · rw [houtcome]
    refine entryOf_unterminated hlimit fun i hi => ?_
    rw [hbyte]
    exact hnonzero _ (Nat.le_add_right _ _) (by omega)
  · have hmem := hsettled _ (houtcome.symm.trans h)
    simp at hmem
  · have hmem := hsettled _ (houtcome.symm.trans h)
    simp at hmem
  · rw [houtcome, hwindow]

/-- The table `ab\0c` at `0x1000`. -/
def stringMemory : MappedGuestMemory :=
  let memory := MappedGuestMemory.create 4096 (fun _ _ => true) MappedGuestMemory.fourKiB_dvd
  (GuestMemory.write (memory.map 0x1000 4096 (.read ||| .write)).2 0x1000 [97, 98, 0, 99]).2

def stringTableOf : Elf32StringTableMetadata where
  guestAddress := 0x1000
  size := 4

theorem string_entry_limits :
    (readElf32StringTableEntry stringTableOf 0 ⟨2⟩).under (GuestMemory.reads stringMemory)
        = .ok [97, 98]
      ∧ (readElf32StringTableEntry stringTableOf 0 ⟨1⟩).under (GuestMemory.reads stringMemory)
        = .error .stringTooLong
      ∧ (readElf32StringTableEntry stringTableOf 3 ⟨1⟩).under (GuestMemory.reads stringMemory)
        = .error .unterminatedString := by
  have hreadable : stringMemory.Readable stringTableOf.guestAddress.toNat
      stringTableOf.size.toNat := by
    have hread : GuestMemory.read stringMemory 0x1000 4 = some [97, 98, 0, 99] := by decide
    exact (MappedGuestMemory.read_eq_some_iff_readable.mp hread).1
  refine ⟨?_, ?_, ?_⟩
  · exact (string_entry hreadable (by decide) 2).1 2 (by decide) (by decide) (by decide)
      (by decide) (by decide)
  · exact (string_entry hreadable (by decide) 1).2.1 (by decide) (by decide)
  · exact (string_entry hreadable (by decide) 1).2.2.1 (by decide) (by decide)

end LibA32Android

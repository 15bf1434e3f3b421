/-
What the preparation of relocations establishes.

* `Planned`: an entry of the plan, its place and the word there;
* `ReferenceValue`: the symbol value of a reference and its Thumb bit, as the graph
  lookup gives them;
* `WriteOf`: a pending write in terms of its table entry, with `relocatedWord` for the
  word;
* `prepareRelocationsForTable_ok`: one pending write for each entry that writes, in
  table order, with distinct places;
* `prepareRelocationsForTable_error`: how a preparation fails, which is never with an
  invalid entry.
-/
import LibA32Android.Elf.HashLookup
import LibA32Android.Elf.RelocationApply

namespace LibA32Android

open Foundations QueryProgram

/-! ### The plan -/

/-- An entry of the plan. -/
structure Planned (o : ReadOracle) (loadBias : UInt32) (table : Elf32RelTableMetadata)
    (kind : Elf32RelocationTable) (i : ℕ) (entry : Elf32RelocationEntry) : Prop where
  decoded : ∃ address bytes, address.toNat = table.guestAddress.toNat + i * 8
    ∧ o (address, 8) = some bytes
    ∧ entry = { decodeRelocation i bytes with
        placeGuestAddress := entry.placeGuestAddress, originalWord := entry.originalWord }
  supported : supportedTypeForTable entry.type kind = true
  place : entry.placeGuestAddress.toNat = loadBias.toNat + entry.offset.toNat
  target : entry.type ≠ rArmNone → 4 ∣ entry.placeGuestAddress.toNat
    ∧ ∃ bytes, o (entry.placeGuestAddress, 4) = some bytes
      ∧ entry.originalWord = some (decodeU32Le bytes 0)

section Plan

variable {o : ReadOracle} {loadBias : UInt32} {table : Elf32RelTableMetadata}
  {kind : Elf32RelocationTable}

lemma four_dvd_of_and_three {x : UInt32} (h : x &&& 3 = 0) : 4 ∣ x.toNat := by
  have hand : (x &&& 3).toNat = x.toNat % 4 := by
    rw [UInt32.toNat_and]
    exact Nat.and_two_pow_sub_one_eq_mod x.toNat 2
  rw [h] at hand
  exact Nat.dvd_of_mod_eq_zero hand.symm

lemma readRelocationBytes_ok {i : ℕ} {bytes : List UInt8}
    (h : (readRelocationBytes table i).under o = .ok bytes) :
    ∃ address, address.toNat = table.guestAddress.toNat + i * 8
      ∧ o (address, 8) = some bytes := by
  rw [readRelocationBytes] at h
  split at h
  · cases h
  · rename_i address haddress
    refine ⟨address, (checkedAddGuestAddress_eq_some.mp haddress).2, ?_⟩
    rw [under_bind, readBytes, under_query, ok_bind] at h
    cases hread : o (address, 8) with
    | none =>
        rw [hread] at h
        cases h
    | some read =>
        rw [hread] at h
        cases h
        rfl

lemma readU32_ok {ε : Type} {e : ε} {address word : UInt32}
    (h : (wordOr e (readU32 address)).under o = .ok word) :
    ∃ bytes, o (address, 4) = some bytes ∧ word = decodeU32Le bytes 0 := by
  simp only [wordOr, readU32, readBytes, under_bind, under_query, ok_bind, under_pure] at h
  cases hread : o (address, 4) with
  | none =>
      rw [hread] at h
      cases h
  | some bytes =>
      rw [hread] at h
      cases h
      exact ⟨bytes, rfl, rfl⟩

lemma planEntry_ok {i : ℕ} {entry : Elf32RelocationEntry}
    (h : (planEntry loadBias table kind i).under o = .ok entry) :
    Planned o loadBias table kind i entry := by
  rw [planEntry, under_bind, bind_ok_iff] at h
  obtain ⟨bytes, hbytes, h⟩ := h
  obtain ⟨address, haddress, hread⟩ := readRelocationBytes_ok hbytes
  rw [under_bind, under_reject, refuse_bind_ok_iff] at h
  obtain ⟨hsupported, h⟩ := h
  split at h
  · cases h
  rename_i place hplace
  have hplace' := (checkedAddGuestAddress_eq_some.mp hplace).2
  split at h
  · rename_i hnone
    cases h
    exact ⟨⟨address, bytes, haddress, hread, rfl⟩, by simpa using hsupported, hplace',
      fun hwrites => absurd hnone hwrites⟩
  · rw [under_bind, under_reject, refuse_bind_ok_iff, not_not] at h
    obtain ⟨haligned, h⟩ := h
    rw [under_bind, bind_ok_iff] at h
    obtain ⟨original, horiginal, h⟩ := h
    cases h
    obtain ⟨word, hword, rfl⟩ := readU32_ok horiginal
    exact ⟨⟨address, bytes, haddress, hread, rfl⟩, by simpa using hsupported, hplace',
      fun _ => ⟨four_dvd_of_and_three haligned, word, hword, rfl⟩⟩

/-- The places that a list of entries writes. -/
def writtenPlaces (entries : List Elf32RelocationEntry) : List UInt32 :=
  (entries.filter fun entry => entry.type ≠ rArmNone).map (·.placeGuestAddress)

/-- The plan loop: every entry is planned, and no place is written twice. -/
lemma planEntries_ok {left i : ℕ} {writeTargets : List UInt32}
    {entries : List Elf32RelocationEntry}
    (h : (planEntries loadBias table kind left i writeTargets).under o = .ok entries) :
    List.Forall₂ (Planned o loadBias table kind) (List.range' i left) entries
      ∧ (writtenPlaces entries).Nodup ∧ ∀ p ∈ writtenPlaces entries, p ∉ writeTargets := by
  induction left generalizing i writeTargets entries with
  | zero =>
      cases h
      exact ⟨.nil, List.nodup_nil, fun _ hp => absurd hp List.not_mem_nil⟩
  | succ left ih =>
      rw [planEntries, under_bind, bind_ok_iff] at h
      obtain ⟨entry, hentry, h⟩ := h
      have hplanned := planEntry_ok hentry
      rw [List.range'_succ]
      split at h
      · rename_i hnone
        rw [under_bind, bind_ok_iff] at h
        obtain ⟨rest, hrest, h⟩ := h
        cases h
        obtain ⟨hall, hnodup, hfresh⟩ := ih hrest
        have hplaces : writtenPlaces (entry :: rest) = writtenPlaces rest := by
          simp [writtenPlaces, hnone]
        rw [hplaces]
        exact ⟨.cons hplanned hall, hnodup, hfresh⟩
      · rename_i hwrites
        rw [under_bind, under_reject, refuse_bind_ok_iff] at h
        obtain ⟨hnew, h⟩ := h
        rw [under_bind, bind_ok_iff] at h
        obtain ⟨rest, hrest, h⟩ := h
        cases h
        obtain ⟨hall, hnodup, hfresh⟩ := ih hrest
        have hplaces : writtenPlaces (entry :: rest)
            = entry.placeGuestAddress :: writtenPlaces rest := by
          simp [writtenPlaces, hwrites]
        rw [hplaces]
        refine ⟨.cons hplanned hall, List.nodup_cons.mpr ⟨fun hmem => ?_, hnodup⟩, ?_⟩
        · exact hfresh _ hmem List.mem_cons_self
        · intro p hp
          rcases List.mem_cons.mp hp with rfl | hp
          · exact hnew
          · exact fun hmem => hfresh p hp (List.mem_cons_of_mem _ hmem)

end Plan

/-- The number of entries of a table. -/
def relocationCount (metadata : Elf32LinkerMetadata) (kind : Elf32RelocationTable) : ℕ :=
  match selectedTable metadata kind with
  | none => 0
  | some table => table.size.toNat / 8

section Requests

variable {o : ReadOracle} {graph : Elf32DependencyGraph} {objectIndex : ℕ}
  {options : Elf32RelocationOptions} {kind : Elf32RelocationTable}

/-- The object that is relocated. -/
abbrev relocatedObject (graph : Elf32DependencyGraph) (objectIndex : ℕ) :
    Elf32LoadedDependencyObject := graph.objects.getD objectIndex default

lemma buildRelocationPlanForTable_ok {plan : Elf32RelocationPlan}
    (h : (buildRelocationPlanForTable graph objectIndex options kind).under o = .ok plan) :
    objectIndex < graph.objects.length
      ∧ List.Forall₂ (fun i entry => ∃ table,
          selectedTable (relocatedObject graph objectIndex).linkerMetadata kind = some table
          ∧ Planned o (relocatedObject graph objectIndex).load.loadBias table kind i entry)
        (List.range (relocationCount (relocatedObject graph objectIndex).linkerMetadata kind))
        plan.entries
      ∧ (writtenPlaces plan.entries).Nodup := by
  rw [buildRelocationPlanForTable, under_bind, under_reject, refuse_bind_ok_iff] at h
  obtain ⟨hrange, h⟩ := h
  refine ⟨by omega, ?_⟩
  rw [relocationCount]
  cases htable : selectedTable (relocatedObject graph objectIndex).linkerMetadata kind with
  | none =>
      simp only [htable] at h
      cases h
      exact ⟨.nil, List.nodup_nil⟩
  | some table =>
      simp only [htable, under_bind, under_reject, refuse_bind_ok_iff] at h
      obtain ⟨-, -, -, h⟩ := h
      obtain ⟨entries, hentries, h⟩ := bind_ok_iff.mp h
      cases h
      obtain ⟨hall, hnodup, -⟩ := planEntries_ok hentries
      rw [UInt32.toNat_div, ← List.range_eq_range'] at hall
      exact ⟨hall.imp fun i entry hplanned => ⟨table, rfl, hplanned⟩, hnodup⟩

/-! ### References -/

/-- The symbol at an index of an object, and its name. -/
def SymbolNamed (o : ReadOracle) (metadata : Elf32LinkerMetadata)
    (options : Elf32SymbolLookupOptions) (symbolIndex : UInt32) (symbol : Elf32Symbol)
    (name : ByteString) : Prop :=
  ∃ symbolTable stringTable, metadata.symbolTable = some symbolTable
    ∧ metadata.stringTable = some stringTable
    ∧ (readSymbol symbolTable symbolIndex : GuestRead Elf32SymbolReadError _).under o
        = .ok (some symbol)
    ∧ (readElf32StringTableEntry stringTable symbol.nameOffset
        { maxStringBytes := options.maxNameBytes }).under o = .ok name

/-- The value of the symbol that a reference names, and whether it is the address of a
Thumb function: those of the definition that the graph lookup finds, or 0 for a weak
reference without one. -/
inductive ReferenceValue (o : ReadOracle) (graph : Elf32DependencyGraph) (objectIndex : ℕ)
    (options : Elf32SymbolLookupOptions) (symbolIndex : UInt32) : UInt32 → Bool → Prop
  | found {symbol : Elf32Symbol} {name : ByteString} {definition : Elf32GraphResolvedSymbol}
      (hnamed : SymbolNamed o (relocatedObject graph objectIndex).linkerMetadata options
        symbolIndex symbol name)
      (hlookup : (lookupElf32GraphSymbolForReference graph objectIndex symbolIndex name
        options).under o = .ok definition) :
      ReferenceValue o graph objectIndex options symbolIndex definition.symbol.guestValue
        (definition.symbol.symbol.type = 2 ∧ definition.symbol.symbol.value % 2 = 1)
  | weak {symbol : Elf32Symbol} {name : ByteString} {failure : Elf32GraphSymbolLookupFailure}
      (hnamed : SymbolNamed o (relocatedObject graph objectIndex).linkerMetadata options
        symbolIndex symbol name)
      (hweak : symbol.binding = 2)
      (hlookup : (lookupElf32GraphSymbolForReference graph objectIndex symbolIndex name
        options).under o = .error failure)
      (hmiss : failure.error = .symbolNotFound) :
      ReferenceValue o graph objectIndex options symbolIndex 0 false

/-- The Thumb bit of a resolved reference. -/
def Elf32RelocationReference.thumb (reference : Elf32RelocationReference) : Bool :=
  !reference.unresolvedWeak
    ∧ ∃ symbol ∈ reference.definingSymbol, symbol.type = 2 ∧ symbol.value % 2 = 1

lemma readElf32SymbolEntry_ok {metadata : Elf32LinkerMetadata} {index : Elf32SymbolIndex}
    {symbolIndex : UInt32} {symbol : Elf32Symbol}
    (h : (readElf32SymbolEntry metadata index symbolIndex).under o = .ok symbol) :
    ∃ symbolTable, metadata.symbolTable = some symbolTable
      ∧ (readSymbol symbolTable symbolIndex : GuestRead Elf32SymbolReadError _).under o
          = .ok (some symbol) := by
  rw [readElf32SymbolEntry] at h
  cases htable : metadata.symbolTable with
  | none =>
      simp only [htable] at h
      cases h
  | some symbolTable =>
      simp only [htable, under_bind, under_reject, refuse_bind_ok_iff] at h
      obtain ⟨found, hfound, h⟩ := bind_ok_iff.mp h.2.2
      cases found with
      | none => cases h
      | some _ =>
          cases h
          exact ⟨symbolTable, rfl, hfound⟩

lemma readReferenceName_ok {metadata : Elf32LinkerMetadata} {options : Elf32SymbolLookupOptions}
    {entry : Elf32RelocationEntry} {symbol : Elf32Symbol} {name : ByteString}
    (h : (readReferenceName objectIndex metadata options entry symbol).under o = .ok name) :
    ∃ stringTable, metadata.stringTable = some stringTable
      ∧ (readElf32StringTableEntry stringTable symbol.nameOffset
          { maxStringBytes := options.maxNameBytes }).under o = .ok name := by
  rw [readReferenceName] at h
  cases htable : metadata.stringTable with
  | none =>
      simp only [htable] at h
      cases h
  | some stringTable =>
      simp only [htable, under_bind, under_mapError] at h
      obtain ⟨read, hread, h⟩ := bind_ok_iff.mp h
      rw [under_reject, refuse_bind_ok_iff] at h
      cases h.2
      exact ⟨stringTable, rfl, mapError_ok_iff.mp hread⟩

lemma resolveReference_ok {index : Elf32SymbolIndex} {entry : Elf32RelocationEntry}
    {reference : Elf32RelocationReference}
    (h : (resolveReference graph objectIndex options index entry).under o = .ok reference) :
    ReferenceValue o graph objectIndex options.symbols entry.symbolIndex reference.symbolValue
      reference.thumb := by
  rw [resolveReference, under_bind, under_reject, refuse_bind_ok_iff] at h
  obtain ⟨-, h⟩ := h
  rw [under_bind, under_reject, refuse_bind_ok_iff] at h
  obtain ⟨-, h⟩ := h
  rw [under_bind, bind_ok_iff] at h
  obtain ⟨symbol, hsymbol, h⟩ := h
  rw [under_bind, bind_ok_iff] at h
  obtain ⟨name, hname, h⟩ := h
  rw [under_bind, bind_ok_iff] at h
  obtain ⟨⟨⟩, -, h⟩ := h
  rw [under_bind, under_attempt, ok_bind, under_ofExcept] at h
  have hnamed : SymbolNamed o (relocatedObject graph objectIndex).linkerMetadata options.symbols
      entry.symbolIndex symbol name := by
    rw [under_mapError, mapError_ok_iff] at hsymbol
    obtain ⟨symbolTable, hsymbols, hread⟩ := readElf32SymbolEntry_ok hsymbol
    obtain ⟨stringTable, hstrings, hstring⟩ := readReferenceName_ok hname
    exact ⟨symbolTable, stringTable, hsymbols, hstrings, hread, hstring⟩
  cases hlookup : (lookupElf32GraphSymbolForReference graph objectIndex entry.symbolIndex name
      options.symbols).under o with
  | ok definition =>
      rw [hlookup] at h
      cases h
      simpa [Elf32RelocationReference.thumb] using ReferenceValue.found hnamed hlookup
  | error failure =>
      rw [hlookup, resolvedReference] at h
      split at h
      · rename_i hmiss
        split at h
        · cases h
        · rename_i hweak
          cases h
          simpa [Elf32RelocationReference.thumb]
            using ReferenceValue.weak hnamed (not_not.mp hweak) hlookup hmiss
      · cases h

/-- The resolution: a reference for every entry that bears a symbol. -/
lemma resolveRelocationReferencesForTable_ok {resolution : Elf32RelocationResolution}
    (h : (resolveRelocationReferencesForTable graph objectIndex options kind).under o
      = .ok resolution) :
    ∃ plan, (buildRelocationPlanForTable graph objectIndex options kind).under o = .ok plan
      ∧ List.Forall₂ (fun entry resolved => resolved.relocation = entry
          ∧ (symbolBearingType entry.type = true → ∃ reference, resolved.reference = some reference
            ∧ ReferenceValue o graph objectIndex options.symbols entry.symbolIndex
                reference.symbolValue reference.thumb)) plan.entries resolution.entries := by
  rw [resolveRelocationReferencesForTable, under_bind, bind_ok_iff] at h
  obtain ⟨plan, hplan, h⟩ := h
  rw [under_mapError, mapError_ok_iff] at hplan
  refine ⟨plan, hplan, ?_⟩
  split at h
  · rw [under_bind, under_reject, refuse_bind_ok_iff] at h
    obtain ⟨-, h⟩ := h
    rw [under_bind, bind_ok_iff] at h
    obtain ⟨index, -, h⟩ := h
    rw [under_bind, bind_ok_iff] at h
    obtain ⟨entries, hentries, h⟩ := h
    cases h
    refine ((collect_under_eq_ok o).mp hentries).imp fun entry resolved hresolved => ?_
    rw [resolveEntry] at hresolved
    split at hresolved
    · rw [under_bind, bind_ok_iff] at hresolved
      obtain ⟨reference, hreference, hresolved⟩ := hresolved
      cases hresolved
      exact ⟨rfl, fun _ => ⟨reference, rfl, resolveReference_ok hreference⟩⟩
    · rename_i hplain
      cases hresolved
      exact ⟨rfl, fun hbears => absurd hbears hplain⟩
  · rename_i hplain
    cases h
    rw [List.forall₂_map_right_iff, List.forall₂_same]
    intro entry hentry
    refine ⟨rfl, fun hbears => absurd ?_ hplain⟩
    exact List.any_eq_true.mpr ⟨entry, hentry, hbears⟩

/-! ### Pending writes -/

/-- The word that an entry stores: `B + A`, `S`, `S + A` or `((S' + A) | T) - P`. -/
def relocatedWord (type : UInt8) (loadBias addend place symbolValue : UInt32) (thumb : Bool) :
    UInt32 :=
  if type = rArmRelative then loadBias + addend
  else if type = rArmAbs32 then symbolValue + addend
  else if type = rArmRel32 then
    (((if thumb then symbolValue &&& ~~~1 else symbolValue) + addend) ||| (if thumb then 1 else 0))
      - place
  else symbolValue

/-- A pending write in terms of its table entry. -/
structure WriteOf (o : ReadOracle) (graph : Elf32DependencyGraph) (objectIndex : ℕ)
    (options : Elf32RelocationOptions) (kind : Elf32RelocationTable)
    (entry : Elf32RelocationEntry) (write : Elf32RelocationWrite) : Prop where
  index : write.relocationIndex = entry.index
  type : write.type = entry.type
  table : write.table = kind
  place : write.placeGuestAddress.toNat
    = (relocatedObject graph objectIndex).load.loadBias.toNat + entry.offset.toNat
  aligned : 4 ∣ write.placeGuestAddress.toNat
  original : ∃ bytes, o (write.placeGuestAddress, 4) = some bytes
    ∧ write.originalWord = decodeU32Le bytes 0
  final : ∃ symbolValue thumb,
    (symbolBearingType entry.type = true → ReferenceValue o graph objectIndex options.symbols
      entry.symbolIndex symbolValue thumb)
    ∧ write.finalWord = relocatedWord entry.type (relocatedObject graph objectIndex).load.loadBias
        write.originalWord write.placeGuestAddress symbolValue thumb

lemma and_one_ne_zero_iff (x : UInt32) : x &&& 1 ≠ 0 ↔ x % 2 = 1 := by
  have hand : (x &&& 1).toNat = x.toNat % 2 := by
    rw [UInt32.toNat_and]
    exact Nat.and_two_pow_sub_one_eq_mod x.toNat 1
  have hmod : (x % 2).toNat = x.toNat % 2 := UInt32.toNat_mod _ _
  rw [ne_eq, ← UInt32.toNat_inj, ← UInt32.toNat_inj, hand, hmod]
  change ¬x.toNat % 2 = 0 ↔ x.toNat % 2 = 1
  omega

/-- The two ways of writing the word of a `R_ARM_REL32` entry. -/
lemma rel32Word_eq (loadBias addend place : UInt32) (reference : Elf32RelocationReference) :
    rel32Word reference addend place
      = relocatedWord rArmRel32 loadBias addend place reference.symbolValue reference.thumb := by
  have hthumb : (!reference.unresolvedWeak
      ∧ ∃ symbol ∈ reference.definingSymbol, symbol.type = 2 ∧ symbol.value &&& 1 ≠ 0)
      ↔ reference.thumb = true := by
    simp [Elf32RelocationReference.thumb, and_one_ne_zero_iff]
  rw [rel32Word, relocatedWord, if_neg (show ¬rArmRel32 = rArmRelative by decide),
    if_neg (show ¬rArmRel32 = rArmAbs32 by decide), if_pos rfl]
  by_cases h : reference.thumb = true
  · rw [if_pos (hthumb.mpr h), if_pos h, if_pos h]
  · rw [if_neg (fun h' => h (hthumb.mp h')), if_neg h, if_neg h]

/-- A type that writes and that some table supports. -/
lemma writing_type {type : UInt8} (hsupported : supportedTypeForTable type kind = true)
    (hwrites : type ≠ rArmNone) :
    type = rArmRelative ∨ type = rArmGlobDat ∨ type = rArmJumpSlot ∨ type = rArmAbs32
      ∨ type = rArmRel32 := by
  cases kind with
  | mainRel =>
      simp only [supportedTypeForTable, supportedType, decide_eq_true_eq] at hsupported
      tauto
  | pltRel =>
      simp only [supportedTypeForTable, decide_eq_true_eq] at hsupported
      tauto

/-- The word of an entry whose type the table supports and whose reference, if it needs
one, is resolved. -/
lemma finalWordOf_cases (objectIndex : ℕ) {resolved : Elf32ResolvedRelocationEntry}
    (hsupported : supportedTypeForTable resolved.relocation.type kind = true)
    (hwrites : resolved.relocation.type ≠ rArmNone)
    (hbears : symbolBearingType resolved.relocation.type = true →
      ∃ reference, resolved.reference = some reference) (loadBias originalWord : UInt32) :
    finalWordOf loadBias objectIndex kind resolved originalWord
        = .error (applyFailure .invalidRelativeSymbol objectIndex
            (some resolved.relocation.index) kind)
    ∨ finalWordOf loadBias objectIndex kind resolved originalWord
        = .ok (relocatedWord resolved.relocation.type loadBias originalWord
            resolved.relocation.placeGuestAddress
            ((resolved.reference.map (·.symbolValue)).getD 0)
            ((resolved.reference.map (·.thumb)).getD false)) := by
  rcases writing_type hsupported hwrites with h | h | h | h | h
  · by_cases hsymbol : resolved.relocation.symbolIndex = 0
    · right
      simp [finalWordOf, relocatedWord, h, hsymbol]
    · left
      simp [finalWordOf, h, hsymbol]
  all_goals
    right
    obtain ⟨reference, hreference⟩ := hbears (by rw [h]; rfl)
    rw [finalWordOf]
    simp only [h, hreference, Option.map_some, Option.getD_some]
  · rfl
  · rfl
  · rfl
  · exact congrArg Except.ok (rel32Word_eq loadBias _ _ _)

/-- An entry that is planned and resolved. -/
structure ReadyEntry (o : ReadOracle) (graph : Elf32DependencyGraph) (objectIndex : ℕ)
    (options : Elf32RelocationOptions) (kind : Elf32RelocationTable) (i : ℕ)
    (resolved : Elf32ResolvedRelocationEntry) : Prop where
  planned : ∃ table,
    selectedTable (relocatedObject graph objectIndex).linkerMetadata kind = some table
    ∧ Planned o (relocatedObject graph objectIndex).load.loadBias table kind i resolved.relocation
  bears : symbolBearingType resolved.relocation.type = true →
    ∃ reference, resolved.reference = some reference
      ∧ ReferenceValue o graph objectIndex options.symbols resolved.relocation.symbolIndex
          reference.symbolValue reference.thumb

lemma resolvedEntries_ready {resolution : Elf32RelocationResolution}
    (h : (resolveRelocationReferencesForTable graph objectIndex options kind).under o
      = .ok resolution) :
    objectIndex < graph.objects.length
      ∧ List.Forall₂ (ReadyEntry o graph objectIndex options kind)
        (List.range (relocationCount (relocatedObject graph objectIndex).linkerMetadata kind))
        resolution.entries
      ∧ (writtenPlaces (resolution.entries.map (·.relocation))).Nodup := by
  obtain ⟨plan, hplan, hresolved⟩ := resolveRelocationReferencesForTable_ok h
  obtain ⟨hrange, hplanned, hnodup⟩ := buildRelocationPlanForTable_ok hplan
  have hentries : plan.entries = resolution.entries.map (·.relocation) := by
    rw [← List.forall₂_eq_eq_eq, List.forall₂_map_right_iff]
    exact hresolved.imp fun entry resolved hr => hr.1.symm
  rw [hentries] at hnodup
  refine ⟨hrange, (forall₂_comp hplanned hresolved).imp ?_, hnodup⟩
  rintro i resolved ⟨entry, htable, rfl, hbears⟩
  exact ⟨htable, hbears⟩

/-- One round of the preparation loop. -/
lemma ReadyEntry.prepareEntry_cases {i : ℕ} {resolved : Elf32ResolvedRelocationEntry}
    (h : ReadyEntry o graph objectIndex options kind i resolved)
    (hwrites : resolved.relocation.type ≠ rArmNone) :
    prepareEntry (relocatedObject graph objectIndex).load.loadBias objectIndex kind resolved
        = .error (applyFailure .invalidRelativeSymbol objectIndex
            (some resolved.relocation.index) kind)
    ∨ ∃ write, prepareEntry (relocatedObject graph objectIndex).load.loadBias objectIndex kind
          resolved = .ok write
        ∧ write.placeGuestAddress = resolved.relocation.placeGuestAddress
        ∧ WriteOf o graph objectIndex options kind resolved.relocation write := by
  obtain ⟨table, -, hplanned⟩ := h.planned
  obtain ⟨haligned, bytes, hbytes, horiginal⟩ := hplanned.target hwrites
  have hbears : symbolBearingType resolved.relocation.type = true →
      ∃ reference, resolved.reference = some reference := fun hb =>
    (h.bears hb).imp fun _ hreference => hreference.1
  have hcases := finalWordOf_cases objectIndex hplanned.supported hwrites hbears
    (relocatedObject graph objectIndex).load.loadBias (decodeU32Le bytes 0)
  simp only [prepareEntry, horiginal]
  rcases hcases with hword | hword
  · exact .inl (by rw [hword]; rfl)
  · refine .inr ⟨_, by rw [hword]; rfl, rfl, ?_⟩
    refine ⟨rfl, rfl, rfl, hplanned.place, haligned, ⟨bytes, hbytes, rfl⟩, _, _, fun hb => ?_, rfl⟩
    obtain ⟨reference, hreference, hvalue⟩ := h.bears hb
    rw [hreference]
    exact hvalue

/-- **A preparation**: one pending write for each entry that writes, in table order, and
no place twice. -/
theorem prepareRelocationsForTable_ok {pending : List Elf32RelocationWrite}
    (h : (prepareRelocationsForTable graph objectIndex options kind).under o = .ok pending) :
    ∃ entries,
      List.Forall₂ (fun i entry => ∃ table,
          selectedTable (relocatedObject graph objectIndex).linkerMetadata kind = some table
          ∧ Planned o (relocatedObject graph objectIndex).load.loadBias table kind i entry)
        (List.range (relocationCount (relocatedObject graph objectIndex).linkerMetadata kind))
        entries
      ∧ List.Forall₂ (WriteOf o graph objectIndex options kind)
        (entries.filter fun entry => entry.type ≠ rArmNone) pending
      ∧ (pending.map (·.placeGuestAddress)).Nodup := by
  rw [prepareRelocationsForTable, under_bind, bind_ok_iff] at h
  obtain ⟨resolution, hresolution, h⟩ := h
  rw [under_mapError, mapError_ok_iff] at hresolution
  obtain ⟨-, hready, hnodup⟩ := resolvedEntries_ready hresolution
  rw [under_bind, under_reject, refuse_bind_ok_iff, under_ofExcept, mapM_ok_iff_forall₂] at h
  have hwriting : List.Forall₂ (fun resolved write =>
      write.placeGuestAddress = resolved.relocation.placeGuestAddress
        ∧ WriteOf o graph objectIndex options kind resolved.relocation write)
      (resolution.entries.filter fun resolved => resolved.relocation.type ≠ rArmNone) pending := by
    have hboth := (List.forall₂_and_left (p := fun resolved => resolved.relocation.type ≠ rArmNone
      ∧ ∃ i, ReadyEntry o graph objectIndex options kind i resolved) _ _).mpr ⟨?_, h.2⟩
    · refine hboth.imp fun resolved write ⟨⟨hwrites, i, hr⟩, hwrite⟩ => ?_
      rcases hr.prepareEntry_cases hwrites with herror | ⟨write', hwrite', hspec⟩
      · rw [hwrite] at herror
        cases herror
      · rw [hwrite] at hwrite'
        cases hwrite'
        exact hspec
    · intro resolved hmem
      rw [List.mem_filter, decide_eq_true_eq] at hmem
      obtain ⟨i, -, hr⟩ := exists_of_forall₂_right hready hmem.1
      exact ⟨hmem.2, i, hr⟩
  refine ⟨resolution.entries.map (·.relocation), ?_, ?_, ?_⟩
  · rw [List.forall₂_map_right_iff]
    exact hready.imp fun i resolved hr => hr.planned
  · rw [List.filter_map, List.forall₂_map_left_iff]
    exact hwriting.imp fun resolved write hw => hw.2
  · have hplaces : writtenPlaces (resolution.entries.map (·.relocation))
        = pending.map (·.placeGuestAddress) := by
      rw [writtenPlaces, List.filter_map, List.map_map, ← List.forall₂_eq_eq_eq,
        List.forall₂_map_left_iff, List.forall₂_map_right_iff]
      exact hwriting.imp fun resolved write hw => hw.1.symm
    rwa [← hplaces]

/-- How a preparation fails. -/
structure PreparationFailure (failure : Elf32RelocationApplyResult) : Prop where
  error : failure.error = some .resolveFailed ∨ failure.error = some .invalidRelativeSymbol
    ∨ failure.error = some .duplicateTargetAcrossTables
  writes : failure.application.writes = []

theorem prepareRelocationsForTable_error {failure : Elf32RelocationApplyResult}
    (h : (prepareRelocationsForTable graph objectIndex options kind).under o = .error failure) :
    PreparationFailure failure := by
  rw [prepareRelocationsForTable, under_bind, bind_error_iff] at h
  rcases h with h | ⟨resolution, hresolution, h⟩
  · rw [under_mapError] at h
    cases hresolve : (resolveRelocationReferencesForTable graph objectIndex options kind).under o with
    | ok resolution =>
        rw [hresolve] at h
        cases h
    | error resolveFailure =>
        rw [hresolve] at h
        cases h
        exact ⟨.inl rfl, rfl⟩
  · rw [under_mapError, mapError_ok_iff] at hresolution
    obtain ⟨hrange, hready, -⟩ := resolvedEntries_ready hresolution
    -- the index is in range and every entry is ready, so only a symbol of a RELATIVE
    -- entry is left to fail for
    rw [under_bind, under_reject, refuse_neg (by omega), ok_bind, under_ofExcept] at h
    obtain ⟨resolved, hmem, hfailure⟩ := exists_of_mapM_error h
    rw [List.mem_filter, decide_eq_true_eq] at hmem
    obtain ⟨i, -, hr⟩ := exists_of_forall₂_right hready hmem.1
    rcases hr.prepareEntry_cases hmem.2 with herror | ⟨write, hwrite, -⟩
    · rw [hfailure] at herror
      cases herror
      exact ⟨.inr (.inl rfl), rfl⟩
    · rw [hfailure] at hwrite
      cases hwrite

end Requests

end LibA32Android

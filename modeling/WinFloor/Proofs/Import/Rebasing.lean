import WinFloor.Proofs.Import.Listing
import WinFloor.Proofs.Import.Rebase

/-!
Walking delay-load tables that hold absolute pointers. At each entry and at each slot that is read
the two files say the same (`Rebased.moduleAt?_eq`, `Rebased.slotAt_eq`), so the two walks pass the
same items and find the same symbols (`directorySymbols_of_rebased`). An ordinal that shares octets
with a pointer does not stay the same (`symbols_ne_of_nestedTable`).
-/
namespace WinFloor

open Image

/-- A field of a record is the number at its place in the file. -/
theorem Octets.number_field {d : Octets} {offset length i : Nat} (inside : offset + length ≤ d.size)
    (field : 4 * i + 4 ≤ length) :
    d.number (offset + 4 * i) 4 = .ok (UInt32.ofNat (littleEndian
      ((d.extract offset (offset + length)).extract (4 * i) (4 * i + 4)).toList)).toNat := by
  have part : (d.extract offset (offset + length)).extract (4 * i) (4 * i + 4) =
      d.extract (offset + 4 * i) (offset + 4 * i + 4) := by
    rw [Array.extract_extract, Nat.min_eq_left (by omega), Nat.add_assoc]
  have bound := littleEndian_lt (d.extract (offset + 4 * i) (offset + 4 * i + 4)).toList
  have four : (d.extract (offset + 4 * i) (offset + 4 * i + 4)).toList.length = 4 := by
    rw [Array.length_toList, Array.size_extract]
    omega
  rw [four] at bound
  rw [number, slice, if_pos (by omega), part, UInt32.toNat_ofNat',
    Nat.mod_eq_of_lt (show _ < 2 ^ 32 from bound)]
  rfl

namespace Import

/-- The fields of an entry are the numbers at their places in the file. -/
theorem DelayDescriptor.numbers_of_read {v : View} {address : UInt32} {d : DelayDescriptor}
    (there : read v address = .ok d) :
    v.data.number (v.map.offset address) 4 = .ok d.attributes.toNat ∧
    v.data.number (v.map.offset address + 4) 4 = .ok d.moduleName.toNat ∧
    v.data.number (v.map.offset address + 16) 4 = .ok d.nameTable.toNat := by
  unfold read at there
  cases octets : v.slice address size with
  | error f =>
    rw [octets] at there
    cases there
  | ok s =>
    rw [octets] at there
    obtain ⟨inside, rfl⟩ := Octets.slice_eq_ok_iff.mp octets
    cases there
    have attributes := Octets.number_field inside (i := 0) (by decide)
    have moduleName := Octets.number_field inside (i := 1) (by decide)
    have nameTable := Octets.number_field inside (i := 4) (by decide)
    exact ⟨attributes, moduleName, nameTable⟩

theorem toRelative?_absolute {base : UInt64} {pointer target : Nat}
    (sum : pointer = target + base.toNat) (narrow : target < UInt32.size) :
    (Addressing.absolute base).toRelative? pointer = some (UInt32.ofNat target) := by
  simp only [Addressing.toRelative?, Addressing.toRelative?.narrow, sum]
  rw [if_pos (Nat.le_add_left ..), Nat.add_sub_cancel, if_pos narrow]

/-- A slot with a relative address of 31 bits points where the one with the absolute address does. -/
theorem hintAddress?_absolute (format : Format) {base : UInt64} {pointer target : Nat}
    (sum : pointer = target + base.toNat) (narrow : target < 0x80000000) :
    (Addressing.absolute base).hintAddress? format pointer =
      Addressing.relative.hintAddress? format target := by
  have fits : target < UInt32.size := Nat.lt_trans narrow (by decide)
  cases format with
  | pe32 =>
    simp only [Addressing.hintAddress?, toRelative?_absolute sum fits]
    simp only [Addressing.toRelative?, Addressing.toRelative?.narrow, if_pos fits]
  | pe32Plus =>
    simp only [Addressing.hintAddress?, toRelative?_absolute sum fits, Nat.mod_eq_of_lt narrow]

section
variable {h : Header} {v : View} {slot : UInt32} {value : Nat} (addressing : Addressing)

theorem slotAt_of_none (gone : slotValue? h v slot = none) :
    slotAt v h.format addressing slot = .unreadable := by
  unfold slotValue? at gone
  unfold slotAt
  cases number : v.data.number (v.map.offset slot) (slotSize h.format) with
  | error f => rfl
  | ok n =>
    rw [number] at gone
    cases gone

theorem number_of_slotValue? (there : slotValue? h v slot = some value) :
    v.data.number (v.map.offset slot) (slotSize h.format) = .ok value := by
  unfold slotValue? at there
  cases number : v.data.number (v.map.offset slot) (slotSize h.format) with
  | error f =>
    rw [number] at there
    cases there
  | ok n =>
    rw [number] at there
    cases there
    rfl

theorem slotAt_of_zero (zero : slotValue? h v slot = some 0) :
    slotAt v h.format addressing slot = .last := by
  rw [slotAt, number_of_slotValue? zero]
  rfl

theorem slotAt_of_ordinal (there : slotValue? h v slot = some value) (nonzero : value ≠ 0)
    (flagged : value.testBit (ordinalBit h.format) = true) :
    slotAt v h.format addressing slot = .symbol (.ordinal (UInt16.ofNat value)) := by
  obtain ⟨n, rfl⟩ := Nat.exists_eq_succ_of_ne_zero nonzero
  rw [slotAt, number_of_slotValue? there]
  simp only [Thunk.ofValue, if_pos flagged]
  rfl

theorem slotAt_of_hintName (there : slotValue? h v slot = some value) (nonzero : value ≠ 0)
    (unflagged : value.testBit (ordinalBit h.format) = false) :
    slotAt v h.format addressing slot = (Thunk.hintName value).slot v h.format addressing := by
  obtain ⟨n, rfl⟩ := Nat.exists_eq_succ_of_ne_zero nonzero
  rw [slotAt, number_of_slotValue? there]
  simp only [Thunk.ofValue, unflagged, Bool.false_eq_true, if_false]

/-- A slot that stands for a symbol holds a number, and not zero. -/
theorem any_ne_zero_of_isSymbol {slot : UInt32}
    (symbol : (slotAt v h.format addressing slot).isSymbol = true) :
    (slotValue? h v slot).any (· ≠ 0) = true := by
  cases there : slotValue? h v slot with
  | none =>
    rw [slotAt_of_none addressing there] at symbol
    cases symbol
  | some value =>
    by_cases zero : value = 0
    · rw [zero] at there
      rw [slotAt_of_zero addressing there] at symbol
      cases symbol
    · simpa using zero

end

theorem Thunk.slot_hintName_congr {v v' : View} {format : Format}
    {addressing addressing' : Addressing} {pointer pointer' : Nat}
    (same : addressing'.hintAddress? format pointer' = addressing.hintAddress? format pointer)
    (names : ∀ name, (addressing.hintAddress? format pointer).bind (advance? · hintSize) = some name →
      (v'.name name).toOption = (v.name name).toOption) :
    (hintName pointer').slot v' format addressing' =
      (hintName pointer).slot v format addressing := by
  unfold slot
  simp only [same]
  cases points : (addressing.hintAddress? format pointer).bind (advance? · hintSize) with
  | none => rfl
  | some name =>
    have text := names name points
    cases there : v.name name <;> cases there' : v'.name name <;>
      simp_all [Except.toOption]

namespace DelayDescriptor

variable {v : View} {address : UInt32} {d : DelayDescriptor}

theorem exists_read_iff :
    (∃ d, read v address = .ok d) ↔ v.map.offset address + size ≤ v.data.size := by
  unfold read View.slice Octets.slice
  split
  next inside => exact ⟨fun _ => inside, fun _ => ⟨_, rfl⟩⟩
  next outside =>
    refine ⟨fun ⟨d, there⟩ => ?_, fun inside => absurd inside outside⟩
    cases there

theorem entryAt_relative (h : Header) (there : read v address = .ok d) (apart : d ≠ .null)
    (relative : d.isRelative = true) :
    Source.delayed.entryAt h v address = .ok (some ⟨d.moduleName, d.nameTable, .relative⟩) := by
  rw [Source.entryAt, there]
  simp only [bind, Except.bind, if_neg apart, relative, if_true, toRelative?_relative]
  rfl

theorem entryAt_absolute (h : Header) (there : read v address = .ok d) (apart : d ≠ .null)
    (absolute : d.isRelative = false) {moduleName nameTable : UInt32}
    (module : d.moduleName.toNat = moduleName.toNat + h.imageBase.toNat)
    (table : d.nameTable.toNat = nameTable.toNat + h.imageBase.toNat) :
    Source.delayed.entryAt h v address =
      .ok (some ⟨moduleName, nameTable, .absolute h.imageBase⟩) := by
  have name := toRelative?_absolute module moduleName.toNat_lt
  have slots := toRelative?_absolute table nameTable.toNat_lt
  rw [Source.entryAt, there]
  simp only [bind, Except.bind, if_neg apart, absolute, Bool.false_eq_true, if_false, name, slots,
    UInt32.ofNat_toNat]
  rfl

end DelayDescriptor

/-! ## What is read of the first file -/

section
variable {h : Header} {v : View} {address : UInt32} {d : DelayDescriptor}

theorem delayEntryAt?_eq_some_iff :
    delayEntryAt? v address = some d ↔ DelayDescriptor.read v address = .ok d ∧ d ≠ .null := by
  unfold delayEntryAt?
  cases DelayDescriptor.read v address with
  | error f => simp [Except.toOption]
  | ok found =>
    simp only [Except.toOption, Option.filter_eq_some_iff, Option.some.injEq, decide_eq_true_eq,
      Except.ok.injEq]

theorem mem_delayEntries (among : address ∈ delayRow h v)
    (there : DelayDescriptor.read v address = .ok d) (apart : d ≠ .null) :
    (address, d) ∈ delayEntries h v :=
  List.mem_filterMap.mpr
    ⟨address, among, by rw [delayEntryAt?_eq_some_iff.mpr ⟨there, apart⟩]; rfl⟩

theorem moduleAt?_of_null (there : DelayDescriptor.read v address = .ok .null) :
    moduleAt? .delayed h v address = none := by
  rw [moduleAt?, Source.entryAt, there]
  rfl

theorem moduleAt?_of_error {f : Fault} (failed : DelayDescriptor.read v address = .error f) :
    moduleAt? .delayed h v address = none := by
  rw [moduleAt?, Source.entryAt, failed]
  rfl

/-- Only from an entry that is there a walk goes on. -/
theorem mem_delayRow (passed : address ∈ entriesRead .delayed h v) : address ∈ delayRow h v := by
  unfold entriesRead at passed
  unfold delayRow
  split
  next present =>
    rw [if_pos present] at passed
    refine mem_row_mono (fun a goesOn => ?_) passed
    rw [entryYield_eq] at goesOn
    cases there : DelayDescriptor.read v a with
    | error f =>
      rw [moduleAt?_of_error there] at goesOn
      cases goesOn
    | ok d =>
      by_cases apart : d = .null
      · rw [apart] at there
        rw [moduleAt?_of_null there] at goesOn
        cases goesOn
      · rw [delayEntryAt?_eq_some_iff.mpr ⟨there, apart⟩]
        rfl
  next absent =>
    rw [if_neg absent] at passed
    cases passed

theorem mem_slotRow {table slot : UInt32} {addressing : Addressing}
    (read : slot ∈ Table.slots v h.format addressing table) : slot ∈ slotRow h v table := by
  unfold Table.slots at read
  unfold slotRow
  split
  next none =>
    rw [if_pos none] at read
    cases read
  next some =>
    rw [if_neg some] at read
    exact mem_row_mono (fun a symbol => any_ne_zero_of_isSymbol addressing symbol) read

theorem nameAddress?_of_hintName {slot : UInt32} {value : Nat} (addressing : Addressing)
    (there : slotValue? h v slot = some value) (nonzero : value ≠ 0)
    (unflagged : value.testBit (ordinalBit h.format) = false) :
    nameAddress? h v addressing slot =
      (addressing.hintAddress? h.format value).bind (advance? · hintSize) := by
  obtain ⟨n, rfl⟩ := Nat.exists_eq_succ_of_ne_zero nonzero
  rw [nameAddress?, there]
  simp only [unflagged, Bool.false_eq_true, if_false]

end

section
variable {source : Source} {h : Header} {v : View} {address name : UInt32} {e : Entry}

theorem mem_namesRead_of_entry (passed : address ∈ entriesRead source h v)
    (entry : source.entryAt h v address = .ok (some e)) (named : e.moduleName ≠ 0) :
    e.moduleName ∈ namesRead source h v := by
  refine List.mem_flatMap.mpr ⟨address, passed, ?_⟩
  rw [entry]
  simp only [if_neg named]
  exact List.mem_append_left _ (.head _)

theorem mem_namesRead_of_slot {slot : UInt32} (passed : address ∈ entriesRead source h v)
    (entry : source.entryAt h v address = .ok (some e))
    (read : slot ∈ slotsRead source h v address)
    (points : nameAddress? h v e.addressing slot = some name) : name ∈ namesRead source h v := by
  refine List.mem_flatMap.mpr ⟨address, passed, ?_⟩
  rw [entry]
  exact List.mem_append_right _ (List.mem_filterMap.mpr ⟨slot, read, points⟩)

end

/-! ## The two walks -/

namespace Rebased

variable {h : Header} {first second : Octets} (r : Rebased h first second)
include r

theorem agree {span : Span}
    (apart : ∀ edit ∈ edits h (h.view first), edit.place.Apart span) : span.Agree first second := by
  intro i covered
  by_cases inside : i < first.size
  · refine r.elsewhere i inside fun edit changed there => ?_
    have := apart edit changed
    simp only [Span.Apart, Span.Covers] at this covered there
    omega
  · have inside' : ¬i < second.size := by rw [r.size]; exact inside
    rw [Array.getElem?_eq_none (Nat.not_lt.mp inside), Array.getElem?_eq_none (Nat.not_lt.mp inside')]

theorem number_eq {start length : Nat}
    (apart : ∀ edit ∈ edits h (h.view first), edit.place.Apart ⟨start, length⟩) :
    second.number start length = first.number start length :=
  Octets.number_congr r.size (r.agree apart)

theorem name_eq {name : UInt32} (read : name ∈ namesRead .delayed h (h.view first)) :
    ((h.view second).name name).toOption = ((h.view first).name name).toOption := by
  refine Octets.name_congr r.size fun file among span there => r.agree fun edit changed => ?_
  exact r.texts edit changed span
    (List.mem_flatMap.mpr ⟨name, read, List.mem_filterMap.mpr ⟨file, among, there⟩⟩)

theorem read_null {address : UInt32} (among : address ∈ delayRow h (h.view first))
    (null : DelayDescriptor.read (h.view first) address = .ok .null) :
    DelayDescriptor.read (h.view second) address = .ok .null := by
  have ends : ⟨h.map.offset address, DelayDescriptor.size⟩ ∈ terminators h (h.view first) := by
    refine List.mem_append_left _ (List.mem_map_of_mem (List.mem_filter.mpr ⟨among, ?_⟩))
    rw [null]
    rfl
  have same := r.agree fun edit changed => r.ends edit changed _ ends
  have octets : (h.view second).slice address DelayDescriptor.size =
      (h.view first).slice address DelayDescriptor.size :=
    Octets.slice_congr r.size same
  rw [← null, DelayDescriptor.read, octets, ← DelayDescriptor.read]

theorem exists_read_iff {address : UInt32} :
    (∃ d, DelayDescriptor.read (h.view second) address = .ok d) ↔
      ∃ d, DelayDescriptor.read (h.view first) address = .ok d := by
  rw [DelayDescriptor.exists_read_iff, DelayDescriptor.exists_read_iff]
  simp only [Header.view, r.size]

theorem read_error {address : UInt32} {f : Fault}
    (failed : DelayDescriptor.read (h.view first) address = .error f) :
    ∃ f', DelayDescriptor.read (h.view second) address = .error f' := by
  cases there' : DelayDescriptor.read (h.view second) address with
  | error f' => exact ⟨f', rfl⟩
  | ok d' =>
    obtain ⟨d, there⟩ := r.exists_read_iff.mp ⟨d', there'⟩
    rw [failed] at there
    cases there

/-- An entry of the first file in the second: what its pointers stand for is the same. -/
theorem read_entry {address : UInt32} {d : DelayDescriptor}
    (among : address ∈ delayRow h (h.view first))
    (there : DelayDescriptor.read (h.view first) address = .ok d) (apart : d ≠ .null) :
    ∃ d', DelayDescriptor.read (h.view second) address = .ok d' ∧ d'.isRelative = false ∧
      d'.moduleName.toNat = d.moduleName.toNat + h.imageBase.toNat ∧
      d'.nameTable.toNat = d.nameTable.toNat + h.imageBase.toNat := by
  obtain ⟨d', there'⟩ := r.exists_read_iff.mpr ⟨d, there⟩
  obtain ⟨attributes, module, table⟩ := DelayDescriptor.numbers_of_read there'
  have listed := mem_delayEntries among there apart
  have changed : ∀ edit ∈ d.edits h (h.map.offset address), edit ∈ edits h (h.view first) :=
    fun edit one => List.mem_append_left _ (List.mem_flatMap.mpr ⟨(address, d), listed, one⟩)
  have cleared := r.written _ (changed _ (.head _))
  have moduleSum := r.written _ (changed _ (.tail _ (.head _)))
  have tableSum := r.written _ (changed _ (.tail _ (.tail _ (.head _))))
  have even := Option.some.inj ((congrArg Except.toOption attributes).symm.trans cleared)
  refine ⟨d', there', ?_, Option.some.inj ((congrArg Except.toOption module).symm.trans moduleSum),
    Option.some.inj ((congrArg Except.toOption table).symm.trans tableSum)⟩
  rw [DelayDescriptor.isRelative, even, Nat.testBit_zero, Nat.mul_mod_right]
  rfl

theorem moduleAt?_eq_of_read {address : UInt32} {d : DelayDescriptor}
    (passed : address ∈ entriesRead .delayed h (h.view first))
    (there : DelayDescriptor.read (h.view first) address = .ok d) (apart : d ≠ .null) :
    moduleAt? .delayed h (h.view second) address =
      (moduleAt? .delayed h (h.view first) address).map fun (name, entry) =>
        (name, { entry with addressing := .absolute h.imageBase }) := by
  have among := mem_delayRow passed
  have entry := DelayDescriptor.entryAt_relative h there apart
    (r.relative _ (mem_delayEntries among there apart))
  obtain ⟨d', there', absolute, module, table⟩ := r.read_entry among there apart
  rw [moduleAt?_of_entryAt _ _ _ entry]
  by_cases null' : d' = .null
  · -- Only an entry that names no module can become one of zeros.
    have unnamed : d.moduleName = 0 := by
      rw [null'] at module
      have zero : 0 = d.moduleName.toNat + h.imageBase.toNat := module
      exact UInt32.toNat_inj.mp (by rw [UInt32.toNat_zero]; omega)
    rw [null'] at there'
    rw [moduleAt?_of_null there', if_pos unnamed]
    rfl
  have entry' := DelayDescriptor.entryAt_absolute h there' null' absolute module table
  rw [moduleAt?_of_entryAt _ _ _ entry']
  by_cases unnamed : d.moduleName = 0
  · rw [if_pos unnamed, if_pos unnamed]
    rfl
  have read := mem_namesRead_of_entry passed entry unnamed
  rw [if_neg unnamed, if_neg unnamed, r.name_eq read, Option.map_map]
  rfl

/-- An entry that names its module leads to the same name and the same table in both files. -/
theorem moduleAt?_eq {address : UInt32}
    (passed : address ∈ entriesRead .delayed h (h.view first)) :
    moduleAt? .delayed h (h.view second) address =
      (moduleAt? .delayed h (h.view first) address).map fun (name, entry) =>
        (name, { entry with addressing := .absolute h.imageBase }) := by
  cases there : DelayDescriptor.read (h.view first) address with
  | error f =>
    obtain ⟨f', there'⟩ := r.read_error there
    rw [moduleAt?_of_error there, moduleAt?_of_error there']
    rfl
  | ok d =>
    by_cases null : d = .null
    · rw [null] at there
      rw [moduleAt?_of_null there, moduleAt?_of_null (r.read_null (mem_delayRow passed) there)]
      rfl
    · exact r.moduleAt?_eq_of_read passed there null

/-- What is known of an entry that names its module. -/
theorem exists_entry {address : UInt32} {name : String} {e : Entry}
    (passed : address ∈ entriesRead .delayed h (h.view first))
    (named : moduleAt? .delayed h (h.view first) address = some (name, e)) :
    ∃ d, (address, d) ∈ delayEntries h (h.view first) ∧
      Source.delayed.entryAt h (h.view first) address = .ok (some e) ∧
      e = ⟨d.moduleName, d.nameTable, .relative⟩ := by
  have among := mem_delayRow passed
  cases there : DelayDescriptor.read (h.view first) address with
  | error f =>
    rw [moduleAt?_of_error there] at named
    cases named
  | ok d =>
    by_cases null : d = .null
    · rw [null] at there
      rw [moduleAt?_of_null there] at named
      cases named
    have listed := mem_delayEntries among there null
    have entry := DelayDescriptor.entryAt_relative h there null (r.relative _ listed)
    rw [moduleAt?_of_entryAt _ _ _ entry] at named
    split at named
    · cases named
    · obtain ⟨text, -, same⟩ := Option.map_eq_some_iff.mp named
      cases same
      exact ⟨d, listed, entry, rfl⟩

theorem slotValue?_eq {slot : UInt32}
    (apart : ∀ edit ∈ edits h (h.view first), edit.place.Apart (slotSpan h (h.view first) slot)) :
    slotValue? h (h.view second) slot = slotValue? h (h.view first) slot :=
  congrArg Except.toOption (r.number_eq apart)

theorem slotValue?_none {slot : UInt32} (gone : slotValue? h (h.view first) slot = none) :
    slotValue? h (h.view second) slot = none := by
  have outside := Octets.number_toOption_eq_none_iff.mp gone
  exact Octets.number_toOption_eq_none_iff.mpr (by simpa only [Header.view, r.size] using outside)

theorem slotValue?_named {slot : UInt32} {value : Nat}
    (points : (slot, value) ∈ namedSlots h (h.view first)) :
    slotValue? h (h.view second) slot = some (value + h.imageBase.toNat) :=
  r.written _ (List.mem_append_right _ (List.mem_map_of_mem points))

/-- A slot that is read stands for the same symbol in both files. -/
theorem slotAt_eq
    (ordinals : OrdinalsApart h (h.view first)) {address : UInt32} {name : String} {e : Entry}
    (passed : address ∈ entriesRead .delayed h (h.view first))
    (named : moduleAt? .delayed h (h.view first) address = some (name, e))
    {slot : UInt32} (read : slot ∈ slotsRead .delayed h (h.view first) address) :
    slotAt (h.view second) h.format (.absolute h.imageBase) slot =
      slotAt (h.view first) h.format .relative slot := by
  obtain ⟨d, listed, entry, rfl⟩ := r.exists_entry passed named
  have among : slot ∈ slotRow h (h.view first) d.nameTable := by
    rw [slotsRead, named] at read
    exact mem_slotRow read
  cases value : slotValue? h (h.view first) slot with
  | none => rw [slotAt_of_none _ value, slotAt_of_none _ (r.slotValue?_none value)]
  | some n =>
    by_cases zero : n = 0
    · rw [zero] at value
      have ends : slotSpan h (h.view first) slot ∈ terminators h (h.view first) := by
        refine List.mem_append_right _ (List.mem_flatMap.mpr ⟨(address, d), listed, ?_⟩)
        exact List.mem_map_of_mem (List.mem_filter.mpr ⟨among, by simp [value]⟩)
      have value' := r.slotValue?_eq fun edit changed => r.ends edit changed _ ends
      rw [slotAt_of_zero _ value, slotAt_of_zero _ (value'.trans value)]
    cases bit : n.testBit (ordinalBit h.format) with
    | true =>
      have ordinal : slotSpan h (h.view first) slot ∈ ordinalsRead .delayed h (h.view first) := by
        refine List.mem_flatMap.mpr ⟨address, passed, ?_⟩
        exact List.mem_map_of_mem (List.mem_filter.mpr ⟨read, by simp [value, bit]⟩)
      have value' := r.slotValue?_eq fun edit changed => ordinals edit changed _ ordinal
      rw [slotAt_of_ordinal _ value zero bit, slotAt_of_ordinal _ (value'.trans value) zero bit]
    | false =>
      have points : (slot, n) ∈ namedSlots h (h.view first) := by
        refine List.mem_flatMap.mpr ⟨(address, d), listed, ?_⟩
        exact List.mem_filterMap.mpr ⟨slot, among, by simp [value, zero, bit]⟩
      have zero' : n + h.imageBase.toNat ≠ 0 := by omega
      rw [slotAt_of_hintName _ value zero bit,
        slotAt_of_hintName _ (r.slotValue?_named points) zero' (r.unflagged _ points)]
      refine Thunk.slot_hintName_congr (hintAddress?_absolute _ rfl (r.narrow _ points)) ?_
      intro name there
      refine r.name_eq (mem_namesRead_of_slot passed entry read ?_)
      rw [nameAddress?_of_hintName _ value zero bit, there]

/-- The entries that are read add the same symbols in both files, and have the same slots read. -/
theorem entry_eq
    (ordinals : OrdinalsApart h (h.view first)) {address : UInt32}
    (passed : address ∈ entriesRead .delayed h (h.view first)) :
    entryYield .delayed h (h.view second) address = entryYield .delayed h (h.view first) address ∧
      slotsRead .delayed h (h.view second) address =
        slotsRead .delayed h (h.view first) address := by
  have both := r.moduleAt?_eq passed
  rw [entryYield_eq, entryYield_eq, slotsRead, both]
  cases named : moduleAt? .delayed h (h.view first) address with
  | none =>
    rw [slotsRead, named]
    exact ⟨rfl, rfl⟩
  | some found =>
    obtain ⟨name, e⟩ := found
    have slots := fun slot (read : slot ∈ slotsRead .delayed h (h.view first) address) =>
      r.slotAt_eq ordinals passed named read
    obtain ⟨d, listed, entry, rfl⟩ := r.exists_entry passed named
    rw [slotsRead, named] at slots ⊢
    simp only [Option.map_some]
    rw [Table.read_congr slots, Table.slots_congr slots]
    exact ⟨rfl, rfl⟩

end Rebased

/-- The walks of the two files find the same symbols in the same order, which are appended to
whatever was found before. They pass the same entries and slots, up to the same last ones. -/
theorem directorySymbols_of_rebased {h : Header} {first second : Octets}
    (r : Rebased h first second) (ordinals : OrdinalsApart h (h.view first)) :
    directorySymbols .delayed h (h.view second) = directorySymbols .delayed h (h.view first) ∧
    (∀ l : SymbolList, l.append (directorySymbols .delayed h (h.view second)) =
      l.append (directorySymbols .delayed h (h.view first))) ∧
    passage .delayed h (h.view second) = passage .delayed h (h.view first) := by
  have entries := fun address (passed : address ∈ entriesRead .delayed h (h.view first)) =>
    r.entry_eq ordinals passed
  have symbols := directorySymbols_congr fun address passed => (entries address passed).1
  have read := entriesRead_congr fun address passed => (entries address passed).1
  refine ⟨symbols, fun l => by rw [symbols], ?_⟩
  rw [passage, passage, read]
  exact List.map_congr_left fun address passed => by rw [(entries address passed).2]

/-- A 64-bit image with one section, whose contents stand behind 16 octets of the file. -/
def oneDelayed : Header where
  machine := 0x8664
  format := .pe32Plus
  imageBase := 0x10000000
  osVersion := ⟨6, 0⟩
  subsystemVersion := ⟨6, 0⟩
  subsystem := 3
  directories := List.replicate 13 .empty ++ [⟨0x1000, 64⟩]
  map := ⟨16, [⟨0x1000, 0x1000, 0x1000, 16⟩]⟩

/-- An entry, a table of a name and an ordinal, and the names, with pointers that count from an
image base. -/
def oneDelayedOctets (attributes base : Nat) : Octets :=
  (List.replicate 16 0 ++
    [attributes, 0x1058 + base, 0, 0, 0x1040 + base, 0, 0, 0].flatMap (toLittleEndian 4) ++
    List.replicate 32 0 ++
    [0x105e + base, 0x8000000000000003, 0].flatMap (toLittleEndian 8) ++
    [0x6f, 0x2e, 0x64, 0x6c, 0x6c, 0, 0, 0, 0x43, 0x6f, 0]).toArray

theorem directorySymbols_of_rebased_oneDelayed :
    Rebased oneDelayed (oneDelayedOctets 1 0) (oneDelayedOctets 0 0x10000000) ∧
    OrdinalsApart oneDelayed (oneDelayed.view (oneDelayedOctets 1 0)) ∧
    directorySymbols .delayed oneDelayed (oneDelayed.view (oneDelayedOctets 0 0x10000000)) =
      [⟨"o.dll", .named "Co", .delayed⟩, ⟨"o.dll", .ordinal 3, .delayed⟩] ∧
    passage .delayed oneDelayed (oneDelayed.view (oneDelayedOctets 0 0x10000000)) =
      [(0x1000, [0x1040, 0x1048, 0x1050]), (0x1020, [])] := by
  have entries : delayEntries oneDelayed (oneDelayed.view (oneDelayedOctets 1 0)) =
      [(0x1000, ⟨1, 0x1058, 0, 0, 0x1040, 0, 0, 0⟩)] := by
    decide +kernel
  have named : namedSlots oneDelayed (oneDelayed.view (oneDelayedOctets 1 0)) =
      [(0x1040, 0x105e)] := by
    rw [namedSlots, entries]
    decide +kernel
  have changed : edits oneDelayed (oneDelayed.view (oneDelayedOctets 1 0)) =
      [⟨⟨16, 4⟩, 0⟩, ⟨⟨20, 4⟩, 0x10001058⟩, ⟨⟨32, 4⟩, 0x10001040⟩, ⟨⟨80, 8⟩, 0x1000105e⟩] := by
    rw [edits, entries, named]
    decide +kernel
  have rebased : Rebased oneDelayed (oneDelayedOctets 1 0) (oneDelayedOctets 0 0x10000000) :=
    { size := by decide +kernel
      relative := by rw [entries]; decide
      narrow := by rw [named]; decide
      unflagged := by rw [named]; decide
      written := by rw [changed]; decide +kernel
      elsewhere := by rw [changed]; decide +kernel
      apart := by rw [changed]; decide
      ends := by rw [changed]; decide +kernel
      texts := by rw [changed]; decide +kernel }
  have ordinals : OrdinalsApart oneDelayed (oneDelayed.view (oneDelayedOctets 1 0)) := by
    rw [OrdinalsApart, changed]
    decide +kernel
  obtain ⟨symbols, -, passed⟩ := directorySymbols_of_rebased rebased ordinals
  refine ⟨rebased, ordinals, ?_, ?_⟩
  · rw [symbols]
    decide +kernel
  · rw [passed]
    decide +kernel

/-- A 32-bit image whose addresses are offsets of the file. -/
def plainDelayed : Header where
  machine := 0x14c
  format := .pe32
  imageBase := 0x400000
  osVersion := ⟨6, 0⟩
  subsystemVersion := ⟨6, 0⟩
  subsystem := 3
  directories := List.replicate 13 .empty ++ [⟨16, 64⟩]
  map := ⟨0, []⟩

/-- An entry whose table starts inside it, with a slot that has its low half in the pointer at the
name and the bit for ordinals in the field behind. -/
def nestedTable (attributes base : Nat) : Octets :=
  ([0, 0, 0, 0, 0x6d] ++ List.replicate 11 0 ++
    [attributes, 4 + base, 0x8000, 0, 22 + base, 0, 0, 0].flatMap (toLittleEndian 4) ++
    List.replicate 32 0).toArray

/-- An ordinal that shares octets with a pointer becomes another one with it. -/
theorem symbols_ne_of_nestedTable :
    Rebased plainDelayed (nestedTable 1 0) (nestedTable 0 0x400000) ∧
    (SymbolList.empty.append (directorySymbols .delayed plainDelayed
      (plainDelayed.view (nestedTable 0 0x400000)))).toList ≠
    (SymbolList.empty.append (directorySymbols .delayed plainDelayed
      (plainDelayed.view (nestedTable 1 0)))).toList := by
  have entries : delayEntries plainDelayed (plainDelayed.view (nestedTable 1 0)) =
      [(16, ⟨1, 4, 0x8000, 0, 22, 0, 0, 0⟩)] := by
    decide +kernel
  have named : namedSlots plainDelayed (plainDelayed.view (nestedTable 1 0)) = [] := by
    rw [namedSlots, entries]
    decide +kernel
  have changed : edits plainDelayed (plainDelayed.view (nestedTable 1 0)) =
      [⟨⟨16, 4⟩, 0⟩, ⟨⟨20, 4⟩, 0x400004⟩, ⟨⟨32, 4⟩, 0x400016⟩] := by
    rw [edits, entries, named]
    decide +kernel
  constructor
  · exact
      { size := by decide +kernel
        relative := by rw [entries]; decide
        narrow := by rw [named]; decide
        unflagged := by rw [named]; decide
        written := by rw [changed]; decide +kernel
        elsewhere := by rw [changed]; decide +kernel
        apart := by rw [changed]; decide
        ends := by rw [changed]; decide +kernel
        texts := by rw [changed]; decide +kernel }
  · have relative : directorySymbols .delayed plainDelayed (plainDelayed.view (nestedTable 1 0)) =
        [⟨"m", .ordinal 0, .delayed⟩] := by
      decide +kernel
    have absolute : directorySymbols .delayed plainDelayed
        (plainDelayed.view (nestedTable 0 0x400000)) = [⟨"m", .ordinal 64, .delayed⟩] := by
      decide +kernel
    rw [absolute, relative, ← SymbolList.ofList, ← SymbolList.ofList, SymbolList.toList_ofList,
      SymbolList.toList_ofList]
    simp [firsts_cons]

end Import

end WinFloor

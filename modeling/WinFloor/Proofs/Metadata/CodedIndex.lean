import WinFloor.Metadata.Table

/-!
Values that refer to a row of one of several tables: the lowest bits are the tag of the table, the
bits above them the row. A value refers to a row exactly if it is what is written for the row and
the row fits above the tag, and it refers to none exactly if its tag is free (`decode_iff_encode`).
This rests on two facts about the tables of each kind: every table has one tag
(`idxOf?_eq_some_iff`), and the tags fit their bits (`tag_lt`).
-/
namespace WinFloor.Metadata.CodedIndex

variable {k : CodedIndex} {table : Table} {tag : Nat} {value row : UInt32}

/-! ## Tags -/

/-- The tags that stand for no table: those that are left out, and those behind the last one. -/
def freeTags : CodedIndex → List Nat
  | typeDefOrRef | hasConstant | hasDeclSecurity | implementation => [3]
  | hasCustomAttribute => [22, 23, 24, 25, 26, 27, 28, 29, 30, 31]
  | memberRefParent => [5, 6, 7]
  | customAttributeType => [0, 1, 4, 5, 6, 7]
  | hasFieldMarshal | hasSemantics | methodDefOrRef | memberForwarded | resolutionScope
  | typeOrMethodDef => []

theorem mem_freeTags_iff (k : CodedIndex) :
    ∀ tag < 1 <<< k.tagBits, tag ∈ k.freeTags ↔ (k.tables[tag]?).join = none := by
  cases k <;> decide

theorem length_tables_le (k : CodedIndex) : k.tables.length ≤ 1 <<< k.tagBits := by
  cases k <;> decide

theorem tag_lt (stands : k.tables[tag]? = some (some table)) : tag < 1 <<< k.tagBits :=
  Nat.lt_of_lt_of_le (List.getElem?_eq_some_iff.mp stands).1 k.length_tables_le

/-- Of the places of the list, only unused ones are alike. -/
theorem idxOf?_getElem (k : CodedIndex) : ∀ (tag : Nat) (inside : tag < k.tables.length),
    k.tables[tag] = none ∨ k.tables.idxOf? k.tables[tag] = some tag := by
  cases k <;> decide

theorem idxOf?_eq_some_iff :
    k.tables.idxOf? (some table) = some tag ↔ k.tables[tag]? = some (some table) := by
  constructor
  · intro first
    obtain ⟨inside, stands, -⟩ := List.idxOf?_eq_some_iff.mp first
    exact List.getElem?_eq_some_iff.mpr ⟨inside, stands⟩
  · intro stands
    obtain ⟨inside, stands⟩ := List.getElem?_eq_some_iff.mp stands
    have first := k.idxOf?_getElem tag inside
    rw [stands] at first
    exact first.resolve_left (by simp)

/-! ## Tag and row in one number -/

theorem parts_iff {bits number row tag : Nat} :
    number >>> bits = row ∧ number % (1 <<< bits) = tag ↔
      row <<< bits + tag = number ∧ tag < 1 <<< bits := by
  rw [Nat.shiftRight_eq_div_pow, Nat.one_shiftLeft, Nat.div_mod_unique (Nat.two_pow_pos bits),
    Nat.shiftLeft_eq, Nat.mul_comm, Nat.add_comm]

/-- A row fits above a tag exactly if no bit of it is lost there. -/
theorem row_lt_iff {row : Nat} (fits : tag < 1 <<< k.tagBits) :
    row < 1 <<< (32 - k.tagBits) ↔ row <<< k.tagBits + tag < UInt32.size := by
  have parts : (1 <<< (32 - k.tagBits)) * (1 <<< k.tagBits) = UInt32.size := by
    cases k <;> rfl
  obtain ⟨above, -⟩ := parts_iff.mpr ⟨rfl, fits⟩
  rw [← parts, ← Nat.div_lt_iff_lt_mul (by omega), Nat.one_shiftLeft k.tagBits,
    ← Nat.shiftRight_eq_div_pow, above]

/-! ## Reading and writing -/

theorem decode_eq_some_iff :
    k.decode value = some (table, row) ↔
      k.tables[value.toNat % (1 <<< k.tagBits)]? = some (some table) ∧
        value.toNat >>> k.tagBits = row.toNat := by
  have small : value.toNat >>> k.tagBits < UInt32.size :=
    Nat.lt_of_le_of_lt (Nat.shiftRight_le ..) value.toNat_lt
  have same : UInt32.ofNat (value.toNat >>> k.tagBits) = row ↔
      value.toNat >>> k.tagBits = row.toNat := by
    rw [← UInt32.toNat_inj, UInt32.toNat_ofNat_of_lt' small]
  simp only [decode, Option.bind_eq_bind, Option.bind_eq_some_iff, Option.join_eq_some_iff,
    Option.pure_def, Option.some.injEq, Prod.mk.injEq, same]
  constructor
  · rintro ⟨_, stands, rfl, above⟩
    exact ⟨stands, above⟩
  · rintro ⟨stands, above⟩
    exact ⟨table, stands, rfl, above⟩

theorem decode_eq_none_iff :
    k.decode value = none ↔ value.toNat % (1 <<< k.tagBits) ∈ k.freeTags := by
  have fits : value.toNat % (1 <<< k.tagBits) < 1 <<< k.tagBits := (parts_iff.mp ⟨rfl, rfl⟩).2
  rw [k.mem_freeTags_iff _ fits]
  simp only [decode, Option.bind_eq_bind, Option.bind_eq_none_iff, Option.pure_def, reduceCtorEq,
    imp_false, ← Option.eq_none_iff_forall_ne_some]

theorem encode_eq_some_iff :
    k.encode table row = some value ↔
      ∃ tag, k.tables[tag]? = some (some table) ∧
        UInt32.ofNat (row.toNat <<< k.tagBits + tag) = value := by
  simp only [encode, Option.map_eq_some_iff, idxOf?_eq_some_iff]

theorem encode_of_decode (decoded : k.decode value = some (table, row)) :
    k.encode table row = some value ∧ row.toNat < 1 <<< (32 - k.tagBits) := by
  obtain ⟨stands, above⟩ := decode_eq_some_iff.mp decoded
  obtain ⟨whole, fits⟩ := parts_iff.mp ⟨above, rfl⟩
  constructor
  · refine encode_eq_some_iff.mpr ⟨_, stands, ?_⟩
    rw [whole, UInt32.ofNat_toNat]
  · rw [row_lt_iff fits, whole]
    exact value.toNat_lt

theorem decode_of_encode (encoded : k.encode table row = some value)
    (small : row.toNat < 1 <<< (32 - k.tagBits)) : k.decode value = some (table, row) := by
  obtain ⟨tag, stands, rfl⟩ := encode_eq_some_iff.mp encoded
  have fits := tag_lt stands
  have whole := UInt32.toNat_ofNat_of_lt' ((row_lt_iff fits).mp small)
  obtain ⟨above, below⟩ := parts_iff.mpr ⟨whole.symm, fits⟩
  rw [decode_eq_some_iff, below]
  exact ⟨stands, above⟩

/-- What is read is what was written, as far as the row fits above the tag. Nothing is read behind a
free tag, and the free tags are those without a table. -/
theorem decode_iff_encode (k : CodedIndex) :
    (∀ value table row, k.decode value = some (table, row) ↔
      k.encode table row = some value ∧ row.toNat < 1 <<< (32 - k.tagBits)) ∧
    (∀ value, k.decode value = none ↔ value.toNat % (1 <<< k.tagBits) ∈ k.freeTags) ∧
    ∀ tag < 1 <<< k.tagBits, tag ∈ k.freeTags ↔ (k.tables[tag]?).join = none := by
  refine ⟨fun value table row => ⟨encode_of_decode, ?_⟩, fun value => decode_eq_none_iff,
    k.mem_freeTags_iff⟩
  rintro ⟨encoded, small⟩
  exact decode_of_encode encoded small

/-- A row with a bit too many is written as another row. -/
example : hasCustomAttribute.encode .typeRef 0x08000007 = hasCustomAttribute.encode .typeRef 7 := by
  decide

end WinFloor.Metadata.CodedIndex

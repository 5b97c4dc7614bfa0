import WinFloor.Metadata.Attribute
import WinFloor.Proofs.Metadata.Reading
import WinFloor.Proofs.Text.Utf8

/-!
Compressed numbers, strings behind their length, and values of attributes, each read back as it was
written.
-/
namespace WinFloor.Metadata

/-- A number below 2^29 in as few octets as it takes, the highest first. -/
def compressedOctets (n : Nat) : List UInt8 :=
  if n < 0x80 then [UInt8.ofNat n]
  else if n < 0x4000 then [UInt8.ofNat (0x80 + n / 0x100), UInt8.ofNat n]
  else
    [UInt8.ofNat (0xc0 + n / 0x1000000), UInt8.ofNat (n / 0x10000), UInt8.ofNat (n / 0x100),
     UInt8.ofNat n]

/-- Octets behind their number. -/
def sizedOctets (bs : List UInt8) : List UInt8 := compressedOctets bs.length ++ bs

def stringOctets (s : String) : List UInt8 := sizedOctets (Text.Utf8.encode s)

/-- The least number that cannot be compressed. -/
def compressedBound : Nat := 0x20000000

/-- The length of a string can be written. -/
def HasLength (s : String) : Prop := (Text.Utf8.encode s).length < compressedBound

theorem reads_compressed {n : Nat} (h : n < compressedBound) :
    Reads Reader.compressed (compressedOctets n) n := by
  rw [compressedBound] at h
  rw [Reader.compressed, compressedOctets]
  split
  next one =>
    have lead : (UInt8.ofNat n).toNat = n := by
      rw [UInt8.toNat_ofNat']
      omega
    rw [← List.append_nil [_]]
    apply (Reads.octet _).bind
    rw [lead, if_pos one]
    exact Reads.pure n
  next =>
    split
    next two =>
      have lead : (UInt8.ofNat (0x80 + n / 0x100)).toNat = 0x80 + n / 0x100 := by
        rw [UInt8.toNat_ofNat']
        omega
      have whole : ((0x80 + n / 0x100) % 0x40) <<< 8 + (UInt8.ofNat n).toNat = n := by
        rw [UInt8.toNat_ofNat', Nat.shiftLeft_eq]
        omega
      rw [← List.singleton_append]
      apply (Reads.octet _).bind
      rw [lead, if_neg (by omega), if_pos (by omega), ← List.append_nil [_]]
      apply (Reads.octet _).bind
      rw [whole]
      exact Reads.pure n
    next =>
      have lead : (UInt8.ofNat (0xc0 + n / 0x1000000)).toNat = 0xc0 + n / 0x1000000 := by
        rw [UInt8.toNat_ofNat']
        omega
      have low : Reader.bigEndian [UInt8.ofNat (n / 0x10000), UInt8.ofNat (n / 0x100),
          UInt8.ofNat n] = n % 0x1000000 := by
        simp only [Reader.bigEndian, List.foldl_cons, List.foldl_nil, UInt8.toNat_ofNat']
        omega
      have whole : ((0xc0 + n / 0x1000000) % 0x20) <<< 24 + n % 0x1000000 = n := by
        rw [Nat.shiftLeft_eq]
        omega
      rw [← List.singleton_append]
      apply (Reads.octet _).bind
      rw [lead, if_neg (by omega), if_neg (by omega), if_pos (by omega),
        ← List.append_nil [_, _, _]]
      apply (Reads.take_of_length (by rfl)).bind
      simp only [low, whole]
      exact Reads.pure n

/-- No number starts as the absent string does. -/
theorem compressedOctets_eq_cons {n : Nat} (h : n < compressedBound) :
    ∃ lead rest, compressedOctets n = lead :: rest ∧ lead ≠ Reader.nullString := by
  rw [compressedBound] at h
  have apart {m : Nat} (small : m < 0xff) : UInt8.ofNat m ≠ Reader.nullString := by
    intro same
    have := congrArg UInt8.toNat same
    rw [UInt8.toNat_ofNat'] at this
    simp [Reader.nullString] at this
    omega
  rw [compressedOctets]
  split
  · exact ⟨_, _, rfl, apart (by omega)⟩
  · split <;> exact ⟨_, _, rfl, apart (by omega)⟩

theorem reads_sized {bs : List UInt8} (h : bs.length < compressedBound) :
    Reads (do Reader.take (← Reader.compressed)) (sizedOctets bs) bs.toArray :=
  (reads_compressed h).bind (Reads.take bs)

theorem reads_string {s : String} (h : HasLength s) :
    Reads Reader.string (stringOctets s) (some s) := by
  rw [Reader.string]
  apply Reads.get_bind
  intro c behind sees
  have there : ¬ c.peek? = some Reader.nullString := by
    obtain ⟨lead, rest, first, apart⟩ := compressedOctets_eq_cons h
    rw [stringOctets, sizedOctets, first, List.cons_append, List.cons_append] at sees
    rw [sees.peek?, Option.some.injEq]
    exact apart
  rw [if_neg there]
  apply (reads_compressed h).bind _ c behind sees
  have read := (Reads.take (Text.Utf8.encode s)).bind_pure fun octets =>
    some (Text.Utf8.lenient octets.toList)
  simpa using read

namespace AttributeValue

/-- A named field that is a string. -/
def stringFieldOctets (name value : String) : List UInt8 :=
  [0x53, 0x0e] ++ stringOctets name ++ stringOctets value

theorem reads_stringField {name value : String} (named : HasLength name)
    (valued : HasLength value) :
    Reads namedArgument (stringFieldOctets name value) (some (name, some value)) := by
  rw [stringFieldOctets, namedArgument, ← List.singleton_append, List.append_assoc,
    List.append_assoc]
  apply (Reads.octet _).bind
  rw [if_neg (by decide)]
  apply (Reads.octet _).bind
  rw [if_neg (by decide)]
  apply (reads_string named).bind
  rw [if_pos (by decide)]
  exact (reads_string valued).bind_pure fun value => some (name, value)

/-- The named arguments, behind the fixed one. -/
def namedOctets : (entryPoint : Option String) → List UInt8
  | none => toLittleEndian 2 0
  | some name => toLittleEndian 2 1 ++ stringFieldOctets "EntryPoint" name

/-- The value of an attribute with a string and perhaps an entry point. -/
def octets (fixed : String) (entryPoint : Option String) : List UInt8 :=
  toLittleEndian 2 1 ++ stringOctets fixed ++ namedOctets entryPoint

theorem hasLength_entryPoint : HasLength "EntryPoint" := by
  rw [HasLength]
  decide +kernel

/-- How many named arguments there are, and what they leave as the entry point. -/
theorem run_named {entryPoint : Option String}
    (named : ∀ name, entryPoint = some name → HasLength name) {c : Cursor}
    (sees : c.Sees (namedOctets entryPoint)) :
    ∃ count, Reader.word.run c = .ok count (c.moved 2) ∧
      entryPointIn count none (c.moved 2) = entryPoint := by
  cases entryPoint with
  | none =>
    refine ⟨0, ?_, rfl⟩
    rw [namedOctets, ← List.append_nil (toLittleEndian 2 0)] at sees
    exact Reads.word (by decide) c _ sees
  | some name =>
    rw [namedOctets] at sees
    refine ⟨1, Reads.word (by decide) c _ sees, ?_⟩
    have field := reads_stringField hasLength_entryPoint (named name rfl) (c.moved 2) []
      (by simpa using sees.moved)
    simp only [entryPointIn, field]
    rfl

/-- An attribute says what was written. -/
theorem read_octets {fixed : String} {entryPoint : Option String} (h : HasLength fixed)
    (named : ∀ name, entryPoint = some name → HasLength name) :
    read (octets fixed entryPoint).toArray = .ok ⟨some fixed, entryPoint⟩ := by
  have sees := Cursor.sees_start (octets fixed entryPoint)
  rw [octets, List.append_assoc] at sees
  have prologRead := Reads.word (n := 1) (by decide) _ _ sees
  have fixedRead := reads_string h _ _ sees.moved
  obtain ⟨count, countRead, left⟩ := run_named named sees.moved.moved
  have room : ¬ (namedOctets entryPoint).length < 2 := by
    cases entryPoint with
    | none => decide
    | some name =>
      rw [namedOctets, List.length_append, length_toLittleEndian]
      omega
  rw [← sees.moved.moved.remaining_eq] at room
  rw [octets, List.append_assoc, read, Reader.value, reader, EStateM.run_bind, prologRead]
  simp only [prolog, ne_eq, not_true_eq_false, ↓reduceIte, EStateM.run_bind, fixedRead,
    EStateM.run_get, room, countRead, left, EStateM.run_pure]

end AttributeValue

end WinFloor.Metadata

import WinFloor.Proofs.Metadata.ArgumentForm

/-!
Values of attributes with any named arguments behind the fixed one. A named argument is a field or a
property, with a text, a truth value, a number or an enumeration. What was written is read back
(`read_written`): the fixed string, and the entry point that the last argument of that name gives.
Arguments behind the last readable one take nothing away, and whatever follows the fixed string, it
is read.
-/
namespace WinFloor.Metadata.AttributeValue

/-! ## What is written -/

/-- A string or none. -/
def optionalOctets : Option String → List UInt8
  | none => [0xff]
  | some s => stringOctets s

inductive ArgumentValue
  | text (s : Option String)
  | boolean (b : Bool)
  | int32 (n : Int32)
  | uint32 (n : UInt32)
  | enumeration (type : String) (n : Int32)

structure NamedArgument where
  isProperty : Bool
  name : String
  value : ArgumentValue

namespace ArgumentValue

def text? : ArgumentValue → Option String
  | text s => s
  | boolean _ | int32 _ | uint32 _ | enumeration .. => none

def typeOctets : ArgumentValue → List UInt8
  | text _ => [0x0e]
  | boolean _ => [0x02]
  | int32 _ => [0x08]
  | uint32 _ => [0x09]
  | enumeration type _ => 0x55 :: stringOctets type

def octets : ArgumentValue → List UInt8
  | text s => optionalOctets s
  | boolean b => [if b then 1 else 0]
  | uint32 n => toLittleEndian 4 n.toNat
  | int32 n | enumeration _ n => toLittleEndian 4 n.toUInt32.toNat

/-- The lengths of its strings can be written. -/
def Fits : ArgumentValue → Prop
  | text s => ∀ t, s = some t → HasLength t
  | enumeration type _ => HasLength type
  | boolean _ | int32 _ | uint32 _ => True

end ArgumentValue

namespace NamedArgument

def kind (a : NamedArgument) : UInt8 := if a.isProperty then 0x54 else 0x53

def octets (a : NamedArgument) : List UInt8 :=
  [a.kind] ++ (a.value.typeOctets ++ (stringOctets a.name ++ a.value.octets))

def Fits (a : NamedArgument) : Prop := HasLength a.name ∧ a.value.Fits

end NamedArgument

/-- The entry point that arguments give: the text of the last one of that name. -/
def entryPointOf (args : List NamedArgument) : Option String :=
  (args.filter (·.name = "EntryPoint")).getLast?.bind (·.value.text?)

/-- The mark of an attribute value and its fixed string. -/
def headOctets (fixed : Option String) : List UInt8 := toLittleEndian 2 1 ++ optionalOctets fixed

/-! ## Forms of what is written -/

theorem form_string {s : String} (h : HasLength s) : StringForm (stringOctets s) (some s) :=
  readsOnly_string.of_reads (reads_string h)

theorem form_optional {s : Option String} (h : ∀ t, s = some t → HasLength t) :
    StringForm (optionalOctets s) s := by
  cases s with
  | none => exact .null
  | some t => exact form_string (h t rfl)

theorem ArgumentValue.form {v : ArgumentValue} (h : v.Fits) :
    ∃ type, TypeForm v.typeOctets type ∧ ValueForm type v.octets v.text? := by
  cases v with
  | text s => exact ⟨stringTag, .plain 0x0e (by decide), .text (form_optional h)⟩
  | boolean b => exact ⟨booleanTag, .plain 0x02 (by decide), .boolean _⟩
  | int32 n =>
    exact ⟨int32Tag, .plain 0x08 (by decide), .number (.inl rfl) (length_toLittleEndian 4 _)⟩
  | uint32 n =>
    exact ⟨uint32Tag, .plain 0x09 (by decide),
      .number (.inr (.inl rfl)) (length_toLittleEndian 4 _)⟩
  | enumeration type n =>
    exact ⟨enumTag, .enumeration (form_string h),
      .number (.inr (.inr rfl)) (length_toLittleEndian 4 _)⟩

theorem NamedArgument.form {a : NamedArgument} (h : a.Fits) :
    ArgumentForm a.octets (a.name, a.value.text?) := by
  have member : a.kind.toNat = fieldTag ∨ a.kind.toNat = propertyTag := by
    rw [NamedArgument.kind]
    cases a.isProperty with
    | false => exact .inl rfl
    | true => exact .inr rfl
  obtain ⟨type, isType, isValue⟩ := a.value.form h.2
  exact .mk member isType (form_string h.1) isValue

/-! ## Arguments one after the other -/

/-- What arguments leave as the entry point, after one that was found before them. -/
def entryPointAfter (found : Option String) (args : List NamedArgument) : Option String :=
  (args.filter (·.name = "EntryPoint")).getLast?.elim found (·.value.text?)

theorem entryPointAfter_cons (found : Option String) (a : NamedArgument)
    (args : List NamedArgument) :
    entryPointAfter found (a :: args) =
      entryPointAfter (if a.name = entryPointName then a.value.text? else found) args := by
  rw [entryPointAfter, entryPointAfter]
  by_cases named : a.name = "EntryPoint"
  · rw [List.filter_cons_of_pos (by simpa using named), List.getLast?_cons,
      if_pos (show a.name = entryPointName from named)]
    cases (args.filter (·.name = "EntryPoint")).getLast? <;> rfl
  · rw [List.filter_cons_of_neg (by simpa using named),
      if_neg (show a.name ≠ entryPointName from named)]

theorem entryPointAfter_none (args : List NamedArgument) :
    entryPointAfter none args = entryPointOf args := by
  rw [entryPointAfter, entryPointOf]
  cases (args.filter (·.name = "EntryPoint")).getLast? <;> rfl

/-- Written arguments are read one by one, whatever stands behind them. -/
theorem entryPointIn_arguments {args : List NamedArgument} (fit : ∀ a ∈ args, a.Fits) (more : Nat)
    (found : Option String) {c : Cursor} {behind : List UInt8}
    (sees : c.Sees (args.flatMap NamedArgument.octets ++ behind)) :
    ∃ moved : Cursor, moved.Sees behind ∧
      entryPointIn (args.length + more) found c =
        entryPointIn more (entryPointAfter found args) moved := by
  induction args generalizing found c with
  | nil => exact ⟨c, sees, by rw [List.length_nil, Nat.zero_add]; rfl⟩
  | cons a args ih =>
    rw [List.flatMap_cons, List.append_assoc] at sees
    have read := (NamedArgument.form (fit a List.mem_cons_self)).reads c _ sees
    obtain ⟨moved, after, rest⟩ := ih (fun a m => fit a (List.mem_cons_of_mem _ m))
      (if a.name = entryPointName then a.value.text? else found) sees.moved
    refine ⟨moved, after, ?_⟩
    calc entryPointIn ((a :: args).length + more) found c
      _ = entryPointIn (args.length + more)
            (if a.name = entryPointName then a.value.text? else found)
            (c.moved a.octets.length) := by
          rw [List.length_cons, Nat.add_right_comm, entryPointIn, read]
      _ = entryPointIn more (entryPointAfter found (a :: args)) moved := by
          rw [rest, entryPointAfter_cons]

/-- Reading ends quietly where no argument starts. -/
theorem entryPointIn_stop {c : Cursor} {behind : List UInt8} (sees : c.Sees behind)
    (stops : ¬ StartsArgument behind) (count : Nat) (found : Option String) :
    entryPointIn count found c = found := by
  cases count with
  | zero => rfl
  | succ count =>
    rw [entryPointIn]
    cases run : namedArgument.run c with
    | error f moved => rfl
    | ok argument? moved =>
      cases argument? with
      | none => rfl
      | some argument => exact absurd ((startsArgument_iff sees).mpr ⟨argument, moved, run⟩) stops

/-! ## Behind the fixed string -/

/-- What is read behind the fixed string. -/
def namedReader (fixed : Option String) : Reader AttributeValue := do
  if (← get).remaining < 2 then return { fixed, entryPoint := none }
  let count ← Reader.word
  return { fixed, entryPoint := entryPointIn count none (← get) }

theorem reader_eq :
    reader = (do
      let word ← Reader.word
      if word ≠ prolog then throw (.metadata (.attributeProlog word))
      let fixed ← Reader.string
      namedReader fixed) :=
  rfl

theorem run_reader {fixed : Option String} (fits : ∀ s, fixed = some s → HasLength s) {c : Cursor}
    {behind : List UInt8} (sees : c.Sees (headOctets fixed ++ behind)) :
    ∃ moved : Cursor, moved.Sees behind ∧ reader.run c = (namedReader fixed).run moved := by
  rw [headOctets, List.append_assoc] at sees
  have mark := Reads.word (n := 1) (by decide) c _ sees
  have fixedRead := (form_optional fits).reads _ _ sees.moved
  refine ⟨_, sees.moved.moved, ?_⟩
  rw [reader_eq, EStateM.run_bind, mark]
  simp only [prolog, ne_eq, not_true_eq_false, ↓reduceIte, EStateM.run_bind, fixedRead]

theorem run_namedReader_short (fixed : Option String) {c : Cursor} {behind : List UInt8}
    (sees : c.Sees behind) (short : behind.length < 2) :
    (namedReader fixed).run c = .ok ⟨fixed, none⟩ c := by
  rw [← sees.remaining_eq] at short
  rw [namedReader, EStateM.run_bind, EStateM.run_get]
  simp only [short, ↓reduceIte]
  rfl

theorem run_namedReader (fixed : Option String) {c : Cursor} {pair behind : List UInt8}
    (sees : c.Sees (pair ++ behind)) (two : pair.length = 2) :
    ∃ moved : Cursor, moved.Sees behind ∧
      (namedReader fixed).run c =
        .ok ⟨fixed, entryPointIn (littleEndian pair) none moved⟩ moved := by
  have room : ¬ c.remaining < 2 := by
    rw [sees.remaining_eq, List.length_append]
    omega
  have counted := (Reads.take_of_length two).map (fun octets : Octets => littleEndian octets.toList)
    c behind sees
  refine ⟨_, sees.moved, ?_⟩
  rw [namedReader, EStateM.run_bind, EStateM.run_get]
  simp only [room, ↓reduceIte]
  rw [EStateM.run_bind, Reader.word, Reader.number, counted]
  rfl

theorem read_eq {fixed : Option String} (fits : ∀ s, fixed = some s → HasLength s)
    (behind : List UInt8) :
    ∃ c : Cursor, c.Sees behind ∧
      read (headOctets fixed ++ behind).toArray = (namedReader fixed).value c := by
  obtain ⟨c, sees, run⟩ := run_reader fits (Cursor.sees_start (headOctets fixed ++ behind))
  exact ⟨c, sees, by rw [read, Reader.value, run, Reader.value]⟩

theorem read_counted {fixed : Option String} (fits : ∀ s, fixed = some s → HasLength s)
    {pair : List UInt8} (two : pair.length = 2) (behind : List UInt8) :
    ∃ c : Cursor, c.Sees behind ∧
      read (headOctets fixed ++ (pair ++ behind)).toArray =
        .ok ⟨fixed, entryPointIn (littleEndian pair) none c⟩ := by
  obtain ⟨c, sees, whole⟩ := read_eq fits (pair ++ behind)
  obtain ⟨moved, after, run⟩ := run_namedReader fixed sees two
  exact ⟨moved, after, by rw [whole, Reader.value, run]⟩

/-- The arguments that were written are read first, and reading goes on behind them if more are
counted. -/
theorem read_arguments {fixed : Option String} {args : List NamedArgument}
    (fixedFits : ∀ s, fixed = some s → HasLength s) (argsFit : ∀ a ∈ args, a.Fits) (more : Nat)
    (few : args.length + more ≤ 65535) (behind : List UInt8) :
    ∃ c : Cursor, c.Sees behind ∧
      read (headOctets fixed ++ (toLittleEndian 2 (args.length + more) ++
        (args.flatMap NamedArgument.octets ++ behind))).toArray =
          .ok ⟨fixed, entryPointIn more (entryPointOf args) c⟩ := by
  have word : littleEndian (toLittleEndian 2 (args.length + more)) = args.length + more := by
    apply littleEndian_toLittleEndian
    have : 1 <<< (8 * 2) = 65536 := rfl
    omega
  obtain ⟨c, sees, whole⟩ := read_counted fixedFits
    (length_toLittleEndian 2 (args.length + more)) (args.flatMap NamedArgument.octets ++ behind)
  obtain ⟨moved, after, entry⟩ := entryPointIn_arguments argsFit more none sees
  exact ⟨moved, after, by rw [whole, word, entry, entryPointAfter_none]⟩

theorem exists_read_fixed {fixed : Option String} (fits : ∀ s, fixed = some s → HasLength s)
    (behind : List UInt8) :
    ∃ entryPoint : Option String,
      read (headOctets fixed ++ behind).toArray = .ok ⟨fixed, entryPoint⟩ := by
  by_cases short : behind.length < 2
  · obtain ⟨c, sees, whole⟩ := read_eq fits behind
    exact ⟨none, by rw [whole, Reader.value, run_namedReader_short fixed sees short]⟩
  · have two : (behind.take 2).length = 2 := by
      rw [List.length_take]
      omega
    obtain ⟨c, -, whole⟩ := read_counted fits two (behind.drop 2)
    rw [List.take_append_drop] at whole
    exact ⟨_, whole⟩

/-- An attribute value is read as it was written, with any named arguments and any octets behind
them. Where fewer arguments follow than are counted, those which can be read count. And whatever
stands behind the fixed string, the string is read. -/
theorem read_written {fixed : Option String} {args : List NamedArgument}
    (fixedFits : ∀ s, fixed = some s → HasLength s) (argsFit : ∀ a ∈ args, a.Fits)
    (few : args.length ≤ 65535) :
    (∀ behind : List UInt8,
      read (headOctets fixed ++ (toLittleEndian 2 args.length ++
        (args.flatMap NamedArgument.octets ++ behind))).toArray =
          .ok ⟨fixed, entryPointOf args⟩) ∧
    (∀ (count : Nat) (behind : List UInt8), args.length < count → count ≤ 65535 →
      ¬ StartsArgument behind →
      read (headOctets fixed ++ (toLittleEndian 2 count ++
        (args.flatMap NamedArgument.octets ++ behind))).toArray =
          .ok ⟨fixed, entryPointOf args⟩) ∧
    ∀ behind : List UInt8, ∃ entryPoint : Option String,
      read (headOctets fixed ++ behind).toArray = .ok ⟨fixed, entryPoint⟩ := by
  refine ⟨?_, ?_, exists_read_fixed fixedFits⟩
  · intro behind
    obtain ⟨c, -, whole⟩ := read_arguments fixedFits argsFit 0 few behind
    exact whole
  · intro count behind fewer fits stops
    obtain ⟨more, rfl⟩ := Nat.exists_eq_add_of_lt fewer
    obtain ⟨c, sees, whole⟩ := read_arguments fixedFits argsFit (more + 1) fits behind
    rw [entryPointIn_stop sees stops] at whole
    exact whole

/-- Two entry points with an enumeration between them. -/
def renamedTwice : List NamedArgument :=
  [⟨false, "EntryPoint", .text (some "Sleep")⟩,
   ⟨true, "CharSet", .enumeration "System.Runtime.InteropServices.CharSet" 3⟩,
   ⟨false, "EntryPoint", .text (some "SleepEx")⟩]

/-- The type of the octets behind the arguments is not known. -/
theorem read_written_renamedTwice :
    HasLength "kernel32.dll" ∧ (∀ a ∈ renamedTwice, a.Fits) ∧ renamedTwice.length ≤ 65535 ∧
    ¬ StartsArgument [0x53, 0x1d, 0x00] ∧
    read (headOctets (some "kernel32.dll") ++ (toLittleEndian 2 3 ++
      (renamedTwice.flatMap NamedArgument.octets ++ []))).toArray =
        .ok ⟨some "kernel32.dll", some "SleepEx"⟩ ∧
    read (headOctets (some "kernel32.dll") ++ (toLittleEndian 2 9 ++
      (renamedTwice.flatMap NamedArgument.octets ++ [0x53, 0x1d, 0x00]))).toArray =
        .ok ⟨some "kernel32.dll", some "SleepEx"⟩ := by
  have fixedLength : HasLength "kernel32.dll" := by
    rw [HasLength]
    decide +kernel
  have fixedFits : ∀ s, some "kernel32.dll" = some s → HasLength s := by
    rintro s ⟨⟩
    exact fixedLength
  have argsFit : ∀ a ∈ renamedTwice, a.Fits := by
    have texts : HasLength "EntryPoint" ∧ HasLength "Sleep" ∧ HasLength "CharSet" ∧
        HasLength "System.Runtime.InteropServices.CharSet" ∧ HasLength "SleepEx" := by
      simp only [HasLength]
      decide +kernel
    obtain ⟨entryPoint, sleep, charSet, type, sleepEx⟩ := texts
    intro a listed
    simp only [renamedTwice, List.mem_cons, List.not_mem_nil, or_false] at listed
    rcases listed with rfl | rfl | rfl
    · exact ⟨entryPoint, by rintro t ⟨⟩; exact sleep⟩
    · exact ⟨charSet, type⟩
    · exact ⟨entryPoint, by rintro t ⟨⟩; exact sleepEx⟩
  have stops : ¬ StartsArgument [0x53, 0x1d, 0x00] := by
    intro starts
    obtain ⟨argument, moved, run⟩ := (startsArgument_iff (Cursor.sees_start _)).mp starts
    cases run
  obtain ⟨whole, cut, -⟩ := read_written fixedFits argsFit (by decide)
  exact ⟨fixedLength, argsFit, by decide, stops, whole [], cut 9 _ (by decide) (by decide) stops⟩

end WinFloor.Metadata.AttributeValue

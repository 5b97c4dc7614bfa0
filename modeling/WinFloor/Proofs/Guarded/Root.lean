import WinFloor.Metadata.Root
import WinFloor.Proofs.Guarded.Reading

/-!
Reading the root of metadata with every operation guarded. The name of a stream lies between two
places of the cursor, so its slice is inside of the data (`follows_streamHeader`).
-/
namespace WinFloor.Guarded

open Metadata

/-- How many octets there are before the next zero, counted one by one on top of `length`. -/
def nameLength (d : Octets) (place length : Nat) : Run (Option Nat) :=
  if h : place < d.size then
    if d[place] = 0 then return some length
    else do
      let longer ← sum wordBound length 1
      nameLength d (place + 1) longer
  else return none

def nameNext : Reading Octets := do
  let c ← get
  match ← of (nameLength c.data (c.origin + c.position) 0) with
  | some length =>
    let stop ← of (sum wordBound c.position length)
    let name ← of (slice c.data (c.origin + c.position) (c.origin + stop))
    set { c with position := stop + 1 }
    return name
  | none =>
    set { c with position := c.size }
    throw (.fault (.outOfBounds c.size c.size))

/-- How many octets fill a name up, told from where it starts and where the cursor is. -/
def paddingFrom (start : Nat) : Reading Nat := do
  let passed ← of (difference (← get).position start)
  return (← of (difference 4 (passed % 4))) % 4

def streamHeader : Reading StreamHeader := do
  let offset ← numberNext 4
  let size ← numberNext 4
  let start := (← get).position
  let name ← nameNext
  skip (← paddingFrom start)
  return { name := (Text.Utf8.strict? name.toList).getD "", span := { offset, size } }

def streams : (count : Nat) → (found : Streams) → Reading Streams
  | 0, found => return found
  | count + 1, found => do
    let header ← streamHeader
    if header.span.isWithin (← get).data then streams count (found.record header)
    else throw (.fault (.metadata (.streamOutOfBounds header.name)))

def textBeforeZero (d : Octets) : Run String := do
  let taken ← slice d 0 ((d.zeroFrom? 0).getD d.size)
  return (Text.Utf8.strict? taken.toList).getD ""

def version : Reading String := do
  let length ← numberNext 4
  let c ← get
  match (take length).run c with
  | .ok taken c =>
    set c
    of (textBeforeZero taken)
  | .error .outOfRange _ => throw .outOfRange
  | .error (.fault _) _ => throw (.fault (.metadata .versionTruncated))

def rootReading : Reading Root := do
  let d := (← get).data
  if d.size < 16 then throw (.fault (.metadata .missingSignature))
  let first ← of (slice d 0 4)
  if first.toList ≠ signature then throw (.fault (.metadata .missingSignature))
  skip Root.preambleSize
  let version ← version
  let _flags ← numberNext 2
  let count ← numberNext 2
  let streams ← streams count .none
  match streams.tables with
  | none => throw (.fault (.metadata .noTableStream))
  | some tables =>
    return { version, tables := tables.octets d, strings := streams.strings.octets d,
             blobs := streams.blobs.octets d }

/-! ## Names -/

variable {d : Octets}

theorem nameLength_eq {d : Octets} (place length : Nat)
    (fits : length + (d.size - place) < wordBound) :
    nameLength d place length =
      .ok ((d.zeroFrom? place).map fun stop => stop - place + length) := by
  fun_induction Octets.zeroFrom? d place generalizing length with
  | case1 place inside zero =>
    rw [nameLength, dif_pos inside, if_pos zero, Option.map_some, Nat.sub_self, Nat.zero_add]
    rfl
  | case2 place inside other ih =>
    rw [nameLength, dif_pos inside, if_neg other, sum_eq (by omega), ok_bind, ih _ (by omega)]
    cases found : d.zeroFrom? (place + 1) with
    | none => rfl
    | some stop =>
      have := (Octets.zeroFrom?_eq_some found).1
      have same : stop - (place + 1) + (length + 1) = stop - place + length := by omega
      rw [Option.map_some, Option.map_some, same]
  | case3 place outside =>
    rw [nameLength, dif_neg outside]
    rfl

/-- A name is read up to its zero, and the cursor stands behind that. -/
theorem follows_nameNext {c : Cursor} (ready : Ready d c) :
    match Reader.untilZero.run c with
    | .ok name moved =>
      nameNext.run c = .ok name moved ∧ Ready d moved ∧
        moved.position = c.position + (name.size + 1)
    | .error f moved => nameNext.run c = .error (.fault f) moved ∧ Ready d moved := by
  have inside := ready.inside
  have room := ready.small
  rw [memoryBound] at room
  have length := nameLength_eq (d := c.data) (c.origin + c.position) 0 (by rw [wordBound]; omega)
  rw [Reader.untilZero, nameNext, EStateM.run_bind, EStateM.run_bind, EStateM.run_get,
    EStateM.run_get]
  simp only [length, of_ok, pure_bind]
  cases found : c.data.zeroFrom? (c.origin + c.position) with
  | none =>
    have last : c.origin + c.size ≤ c.data.size := by
      rw [Cursor.size]
      omega
    exact ⟨rfl, ready.moved last⟩
  | some stop =>
    obtain ⟨behind, before⟩ := Octets.zeroFrom?_eq_some found
    obtain ⟨length, rfl⟩ := Nat.exists_eq_add_of_le behind
    have fits : c.position + length < wordBound := by
      rw [wordBound]
      omega
    have first : c.position + length ≤ c.size := by
      rw [Cursor.size]
      omega
    have zero : c.position + length + 1 ≤ c.size := by
      rw [Cursor.size]
      omega
    have ordered : c.origin + c.position ≤ c.origin + (c.position + length) := by omega
    have ended : c.origin + (c.position + length) ≤ c.data.size := by omega
    have passed : (Reader.skip 1).run { c with position := c.position + length } =
        .ok () { c with position := c.position + length + 1 } := by
      rw [Reader.skip, EStateM.run_bind, run_take (c := { c with position := _ }) zero]
      rfl
    simp only [Option.map_some, Nat.add_sub_cancel_left, Nat.add_zero, sum_eq fits, of_ok,
      slice_eq ordered ended, pure_bind, EStateM.run_bind, run_take first, passed]
    refine ⟨?_, ready.moved (by omega), ?_⟩
    · rw [← Nat.add_assoc c.origin]
      rfl
    · simp only [Array.size_extract]
      omega

/-! ## Streams -/

theorem follows_streamHeader :
    Follows d streamHeader StreamHeader.read fun h => h.span.size < 0x100000000 := by
  apply Follows.dword.bind
  intro offset _
  apply Follows.dword.bind
  intro size narrow c ready
  have named := follows_nameNext ready
  rw [FollowsAt, EStateM.run_bind, EStateM.run_bind, EStateM.run_get]
  simp only [EStateM.run_bind]
  cases run : Reader.untilZero.run c with
  | error f moved =>
    simp only [run] at named
    simp only [named.1]
    exact ⟨trivial, named.2⟩
  | ok name moved =>
    simp only [run] at named
    obtain ⟨guarded, there, place⟩ := named
    have passed : moved.position - c.position = name.size + 1 := by omega
    have padding : (paddingFrom c.position).run moved =
        .ok (namePadding (name.size + 1)) moved := by
      rw [paddingFrom, EStateM.run_bind, EStateM.run_get]
      simp only [difference_eq (show c.position ≤ moved.position by omega), passed, of_ok,
        pure_bind, difference_eq (show (name.size + 1) % 4 ≤ 4 by omega)]
      rfl
    simp only [guarded, padding]
    refine ((Follows.skip (namePadding (name.size + 1))).bind ?_) moved there
    intro _ _
    exact .pure narrow

/-- Streams found so far are no larger than a field says. -/
def Narrow (s : Streams) : Prop := ∀ span, s.tables = some span → span.size < 0x100000000

theorem narrow_record {s : Streams} (narrow : Narrow s) {h : StreamHeader}
    (size : h.span.size < 0x100000000) : Narrow (s.record h) := by
  intro span found
  rw [Streams.record] at found
  split at found
  next =>
    cases found
    exact size
  next =>
    apply narrow
    revert found
    repeat' split
    all_goals exact id

theorem follows_streams (count : Nat) {found : Streams} (narrow : Narrow found) :
    Follows d (streams count found) (Streams.read count found) Narrow := by
  induction count generalizing found with
  | zero => exact .pure narrow
  | succ count ih =>
    apply follows_streamHeader.bind
    intro header size
    apply Follows.get_bind
    intro c ready
    by_cases within : header.span.isWithin c.data = true
    · rw [if_pos within, if_pos within]
      exact ih (narrow_record narrow size) c ready
    · rw [if_neg within, if_neg within]
      exact ⟨rfl, ready⟩

/-! ## The root -/

theorem textBeforeZero_eq (d : Octets) : textBeforeZero d = .ok (Metadata.textBeforeZero d) := by
  have inside : (d.zeroFrom? 0).getD d.size ≤ d.size := by
    cases found : d.zeroFrom? 0 with
    | none => exact Nat.le_refl _
    | some stop => exact Nat.le_of_lt (Octets.zeroFrom?_eq_some found).2
  rw [textBeforeZero, slice_eq (Nat.zero_le _) inside]
  rfl

theorem follows_version : Follows d version Root.readVersion fun _ => True := by
  apply Follows.dword.bind
  intro length _
  apply Follows.get_bind
  intro c ready
  have taken := Follows.take length c ready
  rw [FollowsAt] at taken
  cases run : (Reader.take length).run c with
  | error f moved =>
    simp only [run] at taken
    simp only [taken.1]
    exact ⟨rfl, ready⟩
  | ok octets moved =>
    simp only [run] at taken
    simp only [taken.1, textBeforeZero_eq, of_ok]
    exact ⟨rfl, taken.2.1, trivial⟩

theorem size_octets_le (s : Span) (d : Octets) : (s.octets d).size ≤ s.size := by
  rw [Span.octets, Array.size_extract]
  omega

theorem size_octets_le_size (s : Span) (d : Octets) : (s.octets d).size ≤ d.size := by
  rw [Span.octets, Array.size_extract]
  omega

theorem follows_root :
    Follows d rootReading Root.reader fun root =>
      root.tables.size < fieldBound ∧ root.blobs.size < memoryBound := by
  apply Follows.get_bind
  intro c ready
  refine (?_ : Follows d _ _ _) c ready
  by_cases short : c.data.size < 16
  · simp only [short, ↓reduceIte, decide_true, Bool.true_or]
    exact .throw _
  have large : 4 ≤ c.data.size := by omega
  have sign : (!c.data.startsWith signature) = true ↔
      (c.data.extract 0 4).toList ≠ signature := by
    rw [Bool.not_eq_true', ← Bool.not_eq_true, startsWith_iff]
    rfl
  simp only [short, ↓reduceIte, decide_false, Bool.false_or, slice_eq (Nat.zero_le 4) large, sign,
    of_ok, pure_bind]
  apply Follows.throwing
  intro _
  apply (Follows.skip _).bind
  intro _ _
  apply follows_version.bind
  intro version _
  apply Follows.word.bind
  intro _ _
  apply Follows.word.bind
  intro count _
  have none : Narrow Streams.none := by
    intro span found
    cases found
  apply (follows_streams count none).bind
  intro streams narrow
  cases found : streams.tables with
  | none => exact .throw _
  | some span =>
    apply Follows.pure
    have all := size_octets_le_size streams.blobs c.data
    exact ⟨Nat.lt_of_le_of_lt (size_octets_le span c.data) (narrow span found),
      Nat.lt_of_le_of_lt all ready.small⟩

theorem ready_start (small : d.size < memoryBound) : Ready d (.start d) :=
  ⟨rfl, Nat.zero_le _, small⟩

end WinFloor.Guarded

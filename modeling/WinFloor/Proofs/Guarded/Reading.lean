import WinFloor.Metadata.Attribute
import WinFloor.Proofs.Guarded.Run

/-!
Reading octets one after the other, with every operation guarded. A guarded reading that `Follows`
a plain one gives the same from every cursor that stands inside its octets, and leaves it there.
-/
namespace WinFloor.Guarded

open Metadata

abbrev Reading := EStateM Ending Cursor

/-- The cursor stands inside the octets `d`, which are in memory. -/
structure Ready (d : Octets) (c : Cursor) : Prop where
  same : c.data = d
  inside : c.origin + c.position ≤ c.data.size
  small : c.data.size < memoryBound

/-- From a cursor the guarded reading does what the plain one does, and what it gives has the
property. -/
def FollowsAt (d : Octets) (c : Cursor) (g : Reading α) (r : Reader α) (P : α → Prop) : Prop :=
  match r.run c with
  | .ok a moved => g.run c = .ok a moved ∧ Ready d moved ∧ P a
  | .error f moved => g.run c = .error (.fault f) moved ∧ Ready d moved

def Follows (d : Octets) (g : Reading α) (r : Reader α) (P : α → Prop) : Prop :=
  ∀ c, Ready d c → FollowsAt d c g r P

def of (r : Run α) : Reading α := fun c =>
  match r with
  | .ok a => .ok a c
  | .error e => .error e c

def value (g : Reading α) (c : Cursor) : Run α :=
  match g.run c with
  | .ok a _ => .ok a
  | .error e _ => .error e

/-! ## Readings -/

def take (length : Nat) : Reading Octets := do
  let c ← get
  if c.position + length < wordBound ∧ c.position + length ≤ c.size then
    let first := c.origin + c.position
    let taken ← of (slice c.data first (first + length))
    set { c with position := c.position + length }
    return taken
  else throw (.fault (.outOfBounds c.position c.size))

def skip (length : Nat) : Reading Unit := do
  let _ ← take length

/-- The next `count` octets, one by one. -/
def next (count : Nat) : Reading (List UInt8) := do
  of (octets (← take count) count)

def numberNext (width : Nat) : Reading Nat := littleEndian <$> next width

def compressed : Reading Nat := do
  let lead ← numberNext 1
  if lead < 0x80 then return lead
  else if lead < 0xc0 then
    let low ← numberNext 1
    return (lead % 0x40) <<< 8 + low
  else if lead < 0xe0 then
    let low ← next 3
    return (lead % 0x20) <<< 24 + Reader.bigEndian low
  else throw (.fault (.metadata (.compressedLead lead)))

def string : Reading (Option String) := do
  let c ← get
  if c.peek? = some Reader.nullString then
    set { c with position := ← of (sum wordBound c.position 1) }
    return none
  else
    let length ← compressed
    let taken ← take length
    return some (Text.Utf8.lenient taken.toList)

def remaining : Reading Nat := do
  let c ← get
  of (difference c.size c.position)

/-! ## Following -/

variable {d : Octets}

theorem Ready.moved {c : Cursor} (ready : Ready d c) {place : Nat}
    (inside : c.origin + place ≤ c.data.size) : Ready d { c with position := place } :=
  ⟨ready.same, inside, ready.small⟩

theorem of_ok (a : α) : of (.ok a) = pure a := rfl

theorem value_eq {g : Reading α} {r : Reader α} {P : α → Prop} (h : Follows d g r P) {c : Cursor}
    (ready : Ready d c) : Sound (value g c) (r.value c) := by
  have both := h c ready
  rw [FollowsAt] at both
  rw [value, Reader.value]
  cases run : r.run c with
  | ok a moved =>
    simp only [run] at both
    rw [both.1]
    exact .ok a
  | error f moved =>
    simp only [run] at both
    rw [both.1]
    exact .error f

theorem value_holds {g : Reading α} {r : Reader α} {P : α → Prop} (h : Follows d g r P)
    {c : Cursor} (ready : Ready d c) {a : α} (read : r.value c = .ok a) : P a := by
  have both := h c ready
  rw [FollowsAt] at both
  rw [Reader.value] at read
  cases run : r.run c with
  | error f moved =>
    rw [run] at read
    cases read
  | ok b moved =>
    simp only [run] at both read
    cases read
    exact both.2.2

theorem run_take {c : Cursor} {length : Nat} (fits : c.position + length ≤ c.size) :
    (Reader.take length).run c =
      .ok (c.data.extract (c.origin + c.position) (c.origin + c.position + length))
        { c with position := c.position + length } :=
  if_pos fits

namespace Follows

theorem pure {P : α → Prop} {a : α} (h : P a) : Follows d (Pure.pure a) (Pure.pure a) P := by
  intro c ready
  exact ⟨rfl, ready, h⟩

theorem throw {P : α → Prop} (f : Fault) :
    Follows d (MonadExcept.throw (Ending.fault f) : Reading α) (MonadExcept.throw f) P := by
  intro c ready
  exact ⟨rfl, ready⟩

theorem bind {g : Reading α} {r : Reader α} {P : α → Prop} {next : α → Reading β}
    {rest : α → Reader β} {Q : β → Prop} (h : Follows d g r P)
    (after : ∀ a, P a → Follows d (next a) (rest a) Q) : Follows d (g >>= next) (r >>= rest) Q := by
  intro c ready
  have first := h c ready
  rw [FollowsAt] at first ⊢
  rw [EStateM.run_bind, EStateM.run_bind]
  cases run : r.run c with
  | ok a moved =>
    simp only [run] at first
    obtain ⟨guarded, there, holds⟩ := first
    simp only [guarded]
    exact after a holds moved there
  | error f moved =>
    simp only [run] at first
    obtain ⟨guarded, there⟩ := first
    simp only [guarded]
    exact ⟨trivial, there⟩

theorem throwing {c : Prop} [Decidable c] {f : Fault} {next : Unit → Reading α}
    {rest : Unit → Reader α} {Q : α → Prop} (h : ¬ c → Follows d (next ()) (rest ()) Q) :
    Follows d (if c then MonadExcept.throw (Ending.fault f) >>= next else next ())
      (if c then MonadExcept.throw f >>= rest else rest ()) Q := by
  by_cases stops : c
  · rw [if_pos stops, if_pos stops]
    exact throw f
  · rw [if_neg stops, if_neg stops]
    exact h stops

theorem weaken {g : Reading α} {r : Reader α} {P Q : α → Prop} (h : Follows d g r P)
    (weaker : ∀ a, P a → Q a) : Follows d g r Q := by
  intro c ready
  have both := h c ready
  rw [FollowsAt] at both ⊢
  cases run : r.run c with
  | ok a moved =>
    simp only [run] at both ⊢
    exact ⟨both.1, both.2.1, weaker a both.2.2⟩
  | error f moved =>
    simp only [run] at both ⊢
    exact both

/-- Readings that look at the cursor first. -/
theorem get_bind {next : Cursor → Reading α} {rest : Cursor → Reader α} {P : α → Prop}
    (h : ∀ c, Ready d c → FollowsAt d c (next c) (rest c) P) :
    Follows d (get >>= next) (get >>= rest) P := by
  intro c ready
  rw [FollowsAt, EStateM.run_bind, EStateM.run_bind, EStateM.run_get, EStateM.run_get]
  exact h c ready

theorem set_bind {c moved : Cursor} {next : Reading α} {rest : Reader α} {P : α → Prop}
    (h : Follows d next rest P) (ready : Ready d moved) :
    FollowsAt d c (set moved >>= fun _ => next) (set moved >>= fun _ => rest) P := by
  rw [FollowsAt, EStateM.run_bind, EStateM.run_bind, EStateM.run_set, EStateM.run_set]
  exact h moved ready

/-- A reading that is made only under a condition, and what comes behind it either way. -/
theorem first {c : Prop} [Decidable c] {g : Reading α} {r : Reader α} {P : α → Prop}
    (h : Follows d g r P) {next : Reading β} {rest : Reader β} {Q : β → Prop}
    (after : Follows d next rest Q) :
    Follows d (if c then g >>= fun _ => next else next) (if c then r >>= fun _ => rest else rest)
      Q := by
  by_cases made : c
  · rw [if_pos made, if_pos made]
    exact h.bind fun _ _ => after
  · rw [if_neg made, if_neg made]
    exact after

theorem take (length : Nat) :
    Follows d (Guarded.take length) (Reader.take length) fun taken =>
      taken.size = length ∧ taken.size < memoryBound := by
  intro c ready
  have inside := ready.inside
  have small := ready.small
  rw [memoryBound] at small
  rw [FollowsAt]
  by_cases fits : c.position + length ≤ c.size
  · have within : c.origin + c.position + length ≤ c.data.size := by
      rw [Cursor.size] at fits
      omega
    have word : c.position + length < wordBound := by
      rw [wordBound]
      omega
    rw [run_take fits]
    refine ⟨?_, ready.moved (by omega), ?_⟩
    · simp only [Guarded.take, EStateM.run_bind, EStateM.run_get, word, fits, and_self, ↓reduceIte,
        slice_eq (Nat.le_add_right ..) within, of_ok, EStateM.run_pure, EStateM.run_set]
    · rw [memoryBound]
      simp only [Array.size_extract]
      omega
  · have run : (Reader.take length).run c = .error (.outOfBounds c.position c.size) c :=
      if_neg fits
    rw [run]
    refine ⟨?_, ready⟩
    simp only [Guarded.take, EStateM.run_bind, EStateM.run_get, fits, and_false, ↓reduceIte]
    rfl

theorem skip (length : Nat) : Follows d (Guarded.skip length) (Reader.skip length) fun _ => True :=
  (take length).bind fun _ _ => pure trivial

/-- Octets one by one, where the plain reading takes them as one. -/
theorem next_bind {count : Nat} {next : List UInt8 → Reading β} {rest : Octets → Reader β}
    {Q : β → Prop}
    (after : ∀ taken : Octets, taken.size = count → Follows d (next taken.toList) (rest taken) Q) :
    Follows d (Guarded.next count >>= next) (Reader.take count >>= rest) Q := by
  rw [Guarded.next, bind_assoc]
  apply (take count).bind
  intro taken both
  rw [octets_eq both.1, of_ok, pure_bind]
  exact after taken both.1

theorem number (width : Nat) :
    Follows d (numberNext width) (Reader.number width) fun n => n < 1 <<< (8 * width) := by
  rw [numberNext, Reader.number, map_eq_pure_bind, map_eq_pure_bind]
  apply next_bind
  intro taken size
  have bound := littleEndian_lt taken.toList
  rw [Array.length_toList, size] at bound
  exact pure bound

theorem octet : Follows d (numberNext 1) Reader.octet fun n => n < 0x100 := number 1
theorem word : Follows d (numberNext 2) Reader.word fun n => n < 0x10000 := number 2
theorem dword : Follows d (numberNext 4) Reader.dword fun n => n < 0x100000000 := number 4

theorem compressed : Follows d Guarded.compressed Reader.compressed fun _ => True := by
  apply octet.bind
  intro lead _
  split
  next => exact pure trivial
  next =>
    split
    next =>
      apply octet.bind
      intro low _
      exact pure trivial
    next =>
      split
      next =>
        apply next_bind
        intro low _
        exact pure trivial
      next => exact throw _

theorem string : Follows d Guarded.string Reader.string fun _ => True := by
  apply get_bind
  intro c ready
  by_cases null : c.peek? = some Reader.nullString
  · have inside : c.origin + c.position < c.data.size := by
      rw [Cursor.peek?] at null
      exact (Array.getElem?_eq_some_iff.mp null).1
    have room := ready.small
    rw [memoryBound] at room
    have fits : c.position + 1 < wordBound := by
      rw [wordBound]
      omega
    simp only [null, ↓reduceIte, sum_eq fits, of_ok, pure_bind]
    exact ⟨rfl, ready.moved (by omega), trivial⟩
  · simp only [null, ↓reduceIte]
    refine (compressed.bind ?_) c ready
    intro length _
    apply (take length).bind
    intro taken _
    exact pure trivial

theorem remaining {next : Nat → Reading β} {rest : Cursor → Reader β} {Q : β → Prop}
    (after : ∀ c : Cursor, Follows d (next c.remaining) (rest c) Q) :
    Follows d (Guarded.remaining >>= next) (get >>= rest) Q := by
  rw [Guarded.remaining, bind_assoc]
  apply get_bind
  intro c ready
  have inside : c.position ≤ c.size := by
    have := ready.inside
    rw [Cursor.size]
    omega
  rw [difference_eq inside, of_ok, pure_bind]
  exact after c c ready

end Follows

/-! ## Values of attributes -/

def namedArgument : Reading (Option (String × Option String)) := do
  let kind ← numberNext 1
  if kind ≠ AttributeValue.fieldTag ∧ kind ≠ AttributeValue.propertyTag then return none
  let type ← numberNext 1
  if type = AttributeValue.enumTag then
    let _enumName ← string
  let name := (← string).getD ""
  if type = AttributeValue.stringTag then
    return some (name, ← string)
  else if type = AttributeValue.booleanTag then
    skip 1
    return some (name, none)
  else if type = AttributeValue.int32Tag ∨ type = AttributeValue.uint32Tag ∨
      type = AttributeValue.enumTag then
    skip 4
    return some (name, none)
  else return none

def entryPointIn : (count : Nat) → (found : Option String) → Cursor → Run (Option String)
  | 0, found, _ => return found
  | count + 1, found, c =>
    match namedArgument.run c with
    | .ok (some (name, value)) c =>
      entryPointIn count (if name = AttributeValue.entryPointName then value else found) c
    | .ok none _ | .error (.fault _) _ => return found
    | .error .outOfRange _ => throw .outOfRange

def attributeReading : Reading AttributeValue := do
  let word ← numberNext 2
  if word ≠ AttributeValue.prolog then throw (.fault (.metadata (.attributeProlog word)))
  let fixed ← string
  if (← remaining) < 2 then return { fixed, entryPoint := none }
  let count ← numberNext 2
  return { fixed, entryPoint := ← of (entryPointIn count none (← get)) }

theorem follows_namedArgument :
    Follows d namedArgument AttributeValue.namedArgument fun _ => True := by
  apply Follows.octet.bind
  intro kind _
  split
  next => exact .pure trivial
  apply Follows.octet.bind
  intro type _
  apply Follows.string.first
  apply Follows.string.bind
  intro name _
  split
  next =>
    apply Follows.string.bind
    intro value _
    exact .pure trivial
  split
  next =>
    apply (Follows.skip 1).bind
    intro _ _
    exact .pure trivial
  split
  next =>
    apply (Follows.skip 4).bind
    intro _ _
    exact .pure trivial
  next => exact .pure trivial

theorem entryPointIn_eq (count : Nat) (found : Option String) {c : Cursor} (ready : Ready d c) :
    entryPointIn count found c = .ok (AttributeValue.entryPointIn count found c) := by
  induction count generalizing found c with
  | zero => rfl
  | succ count ih =>
    have one := follows_namedArgument c ready
    rw [FollowsAt] at one
    rw [entryPointIn, AttributeValue.entryPointIn]
    cases run : AttributeValue.namedArgument.run c with
    | error f moved =>
      simp only [run] at one
      rw [one.1]
      rfl
    | ok argument moved =>
      simp only [run] at one
      rw [one.1]
      cases argument with
      | none => rfl
      | some argument => exact ih _ one.2.1

theorem follows_attributeReading :
    Follows d attributeReading AttributeValue.reader fun _ => True := by
  apply Follows.word.bind
  intro word _
  apply Follows.throwing
  intro _
  apply Follows.string.bind
  intro fixed _
  apply Follows.remaining
  intro here
  split
  next => exact .pure trivial
  next =>
    apply Follows.word.bind
    intro count _
    apply Follows.get_bind
    intro c ready
    rw [entryPointIn_eq count none ready, of_ok, pure_bind]
    exact ⟨rfl, ready, trivial⟩

end WinFloor.Guarded

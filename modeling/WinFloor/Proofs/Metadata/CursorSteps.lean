import WinFloor.Proofs.Metadata.ArgumentForm

/-!
A cursor that is asked for one thing after another, of which each may be refused. An operation that
succeeds moves the cursor over the octets that its result was read from; one that fails leaves it
where it was, but for the octets of a length that it had read (`Cursor.Operation.moves`). So through
any run the cursor stays in its octets and never turns back (`Cursor.steps_move`).

* `StopsOnly r S`: where `r` fails, what it moved over, what is then ahead of it, and why it goes no
  further are of the form `S`; beside `ReadsOnly`, which is about where it succeeds;
* `Cursor.Operation.Form`, `Cursor.Operation.Stuck`: the octets of a result and those of a failure.
-/
namespace WinFloor.Metadata

/-! ## Stopping -/

/-- Why a reading goes no further: too few octets are ahead, or a number starts as none does. -/
inductive Obstacle
  | pastEnd
  | lead (octet : UInt8)
  deriving DecidableEq, Repr

/-- The fault that tells of it: octets are missing at the place where the cursor stays. -/
def Obstacle.fault (c : Cursor) : Obstacle → Fault
  | pastEnd => .outOfBounds c.position c.size
  | lead octet => .metadata (.compressedLead octet.toNat)

def StopsOnly (r : Reader α) (S : List UInt8 → List UInt8 → Obstacle → Prop) : Prop :=
  ∀ (c moved : Cursor) (all : List UInt8) (f : Fault), c.Sees all → r.run c = .error f moved →
    ∃ bs behind why, all = bs ++ behind ∧ moved = c.moved bs.length ∧ f = why.fault moved ∧
      S bs behind why

theorem ReadsOnly.map {r : Reader α} {G : List UInt8 → α → Prop} (f : α → β) (h : ReadsOnly r G) :
    ReadsOnly (f <$> r) fun bs b => ∃ a, G bs a ∧ b = f a := by
  rw [map_eq_pure_bind]
  apply h.bind
  intro bs a form
  exact .pure ⟨a, by simpa using form, rfl⟩

namespace StopsOnly

variable {r : Reader α} {next : α → Reader β} {G : List UInt8 → α → Prop}
  {S T : List UInt8 → List UInt8 → Obstacle → Prop}

theorem pure (a : α) : StopsOnly (Pure.pure a) S := by
  rintro c moved all f sees ⟨⟩

theorem weaken (h : StopsOnly r S) (weaker : ∀ bs behind why, S bs behind why → T bs behind why) :
    StopsOnly r T := by
  intro c moved all f sees run
  obtain ⟨bs, behind, why, split, same, told, form⟩ := h c moved all f sees run
  exact ⟨bs, behind, why, split, same, told, weaker bs behind why form⟩

theorem bind (first : StopsOnly r S) (only : ReadsOnly r G)
    (second : ∀ as a, G as a → StopsOnly (next a) fun bs => S (as ++ bs)) :
    StopsOnly (r >>= next) S := by
  intro c moved all f sees run
  rw [EStateM.run_bind] at run
  cases one : r.run c with
  | error g between =>
    rw [one] at run
    cases run
    exact first c moved all f sees one
  | ok a between =>
    rw [one] at run
    obtain ⟨as, rest, rfl, rfl, form⟩ := only c between all a sees one
    obtain ⟨bs, behind, why, rfl, rfl, told, stuck⟩ :=
      second as a form _ moved rest f sees.moved run
    refine ⟨as ++ bs, behind, why, (List.append_assoc as bs behind).symm, ?_, told, stuck⟩
    rw [Cursor.moved_moved, List.length_append]

theorem map (f : α → β) (h : StopsOnly r S) : StopsOnly (f <$> r) S := by
  intro c moved all g sees run
  rw [map_eq_pure_bind, EStateM.run_bind] at run
  cases one : r.run c with
  | error g between =>
    rw [one] at run
    cases run
    exact h c moved all g sees one
  | ok a between =>
    rw [one] at run
    cases run

theorem take (length : Nat) : StopsOnly (Reader.take length) fun bs behind why =>
    bs = [] ∧ behind.length < length ∧ why = .pastEnd := by
  intro c moved all f sees run
  have inside := sees.inside
  have room := sees.length_eq
  change Reader.take length c = _ at run
  rw [Reader.take] at run
  split at run
  next => cases run
  next short =>
    rw [Cursor.size] at short
    cases run
    exact ⟨[], all, .pastEnd, rfl, rfl, rfl, rfl, by omega, rfl⟩

theorem number (width : Nat) : StopsOnly (Reader.number width) fun bs behind why =>
    bs = [] ∧ behind.length < width ∧ why = .pastEnd :=
  (take width).map _

theorem octet : StopsOnly Reader.octet fun bs behind why =>
    bs = [] ∧ behind = [] ∧ why = .pastEnd := by
  apply (number 1).weaken
  rintro bs behind why ⟨nothing, short, told⟩
  exact ⟨nothing, List.length_eq_zero_iff.mp (Nat.lt_one_iff.mp short), told⟩

end StopsOnly

/-! ## Numbers and strings that are cut short -/

/-- A compressed number that ends too soon, or whose first octet is that of no number. No octet
behind the first one has been read. -/
inductive CompressedStuck : List UInt8 → List UInt8 → Obstacle → Prop
  | empty : CompressedStuck [] [] .pastEnd
  | two (lead : UInt8) (least : 0x80 ≤ lead.toNat) (most : lead.toNat < 0xc0) :
    CompressedStuck [lead] [] .pastEnd
  | four (lead : UInt8) (behind : List UInt8) (least : 0xc0 ≤ lead.toNat)
    (most : lead.toNat < 0xe0) (short : behind.length < 3) : CompressedStuck [lead] behind .pastEnd
  | unknown (lead : UInt8) (behind : List UInt8) (least : 0xe0 ≤ lead.toNat) :
    CompressedStuck [lead] behind (.lead lead)

/-- A string whose length cannot be read, or of which less is there than its length says. -/
inductive StringStuck : List UInt8 → List UInt8 → Obstacle → Prop
  | length {bs behind : List UInt8} {why : Obstacle} (stuck : CompressedStuck bs behind why)
    (present : bs ≠ [Reader.nullString]) : StringStuck bs behind why
  | content {bs behind : List UInt8} {length : Nat} (sized : CompressedForm bs length)
    (short : behind.length < length) : StringStuck bs behind .pastEnd

theorem stopsOnly_compressed : StopsOnly Reader.compressed CompressedStuck := by
  refine (StopsOnly.octet.weaken ?_).bind ReadsOnly.octet ?_
  · rintro _ _ _ ⟨rfl, rfl, rfl⟩
    exact .empty
  rintro _ _ ⟨lead, rfl, rfl⟩
  split
  next => exact .pure _
  next long =>
    split
    next most =>
      refine (StopsOnly.octet.weaken ?_).bind ReadsOnly.octet fun _ _ _ => .pure _
      rintro _ _ _ ⟨rfl, rfl, rfl⟩
      exact .two lead (Nat.not_lt.mp long) most
    next longer =>
      split
      next most =>
        refine ((StopsOnly.take 3).weaken ?_).bind (ReadsOnly.take 3) fun _ _ _ => .pure _
        rintro _ behind _ ⟨rfl, short, rfl⟩
        exact .four lead behind (Nat.not_lt.mp longer) most short
      next least =>
        rintro c moved all f sees ⟨⟩
        exact ⟨[], all, .lead lead, rfl, rfl, rfl, .unknown lead all (Nat.not_lt.mp least)⟩

theorem stopsOnly_string : StopsOnly Reader.string StringStuck := by
  intro c moved all f sees run
  rw [Reader.string, EStateM.run_bind, EStateM.run_get] at run
  by_cases null : c.peek? = some Reader.nullString
  · simp only [null, ↓reduceIte] at run
    cases run
  · simp only [null, ↓reduceIte] at run
    -- The form keeps that `all` is ahead, so that no length stops behind the absent string's octet.
    have stops : StopsOnly (do
        let length ← Reader.compressed
        let octets ← Reader.take length
        return some (Text.Utf8.lenient octets.toList)) fun bs behind why =>
          bs ++ behind = all → StringStuck bs behind why := by
      refine (stopsOnly_compressed.weaken fun bs behind why stuck whole => ?_).bind
        readsOnly_compressed fun lead length sized => ?_
      · refine .length stuck ?_
        rintro rfl
        rw [← whole] at sees
        exact null sees.peek?
      · refine ((StopsOnly.take length).weaken ?_).bind (ReadsOnly.take length) fun _ _ _ => .pure _
        rintro _ behind _ ⟨rfl, short, rfl⟩ -
        rw [List.append_nil]
        exact .content sized short
    obtain ⟨bs, behind, why, rfl, same, told, stuck⟩ := stops c moved all f sees run
    exact ⟨bs, behind, why, rfl, same, told, stuck rfl⟩

/-! ## Operations -/

namespace Cursor

/-- What can be asked of a cursor. -/
inductive Operation
  | octets (length : Nat)
  | octet
  | word
  | dword
  | index (width : Nat)
  | compressed
  | string
  deriving DecidableEq, Repr

/-- What it gives. -/
inductive Item
  | octets (octets : Octets)
  | number (n : Nat)
  | string (s : Option String)
  deriving DecidableEq, Repr

namespace Operation

def reader : Operation → Reader Item
  | octets length => .octets <$> Reader.take length
  | octet => .number <$> Reader.octet
  | word => .number <$> Reader.word
  | dword => .number <$> Reader.dword
  | index width => .number <$> Reader.index width
  | compressed => .number <$> Reader.compressed
  | string => .string <$> Reader.string

/-- How many octets a number has that is read as a whole. -/
def width? : Operation → Option Nat
  | octet => some 1
  | word => some 2
  | dword => some 4
  | index width => some (if width = 2 then 2 else 4)
  | octets _ | compressed | string => none

/-- Whether the operation reads a length before it knows how far it goes. -/
def readsLength : Operation → Bool
  | compressed | string => true
  | octets _ | octet | word | dword | index _ => false

/-- The octets from which an operation reads an item. -/
inductive Form : Operation → List UInt8 → Item → Prop
  | octets (bs : List UInt8) : Form (.octets bs.length) bs (.octets bs.toArray)
  | number {op : Operation} (bs : List UInt8) (wide : op.width? = some bs.length) :
    Form op bs (.number (littleEndian bs))
  | compressed {bs : List UInt8} {n : Nat} (form : CompressedForm bs n) :
    Form .compressed bs (.number n)
  | string {bs : List UInt8} {s : Option String} (form : StringForm bs s) :
    Form .string bs (.string s)

/-- The octets over which an operation moves that fails, those then ahead, and why it fails. -/
inductive Stuck : Operation → List UInt8 → List UInt8 → Obstacle → Prop
  | octets {length : Nat} {behind : List UInt8} (short : behind.length < length) :
    Stuck (.octets length) [] behind .pastEnd
  | number {op : Operation} {width : Nat} {behind : List UInt8} (wide : op.width? = some width)
    (short : behind.length < width) : Stuck op [] behind .pastEnd
  | compressed {bs behind : List UInt8} {why : Obstacle} (stuck : CompressedStuck bs behind why) :
    Stuck .compressed bs behind why
  | string {bs behind : List UInt8} {why : Obstacle} (stuck : StringStuck bs behind why) :
    Stuck .string bs behind why

theorem reader_of_width? {op : Operation} {width : Nat} (wide : op.width? = some width) :
    op.reader = .number <$> Reader.number width := by
  cases op with
  | octets | compressed | string => cases wide
  | octet | word | dword =>
    cases wide
    rfl
  | index width =>
    cases wide
    rw [reader, Reader.index]
    split <;> rfl

theorem Form.reads {op : Operation} {bs : List UInt8} {item : Item} (h : op.Form bs item) :
    Reads op.reader bs item := by
  cases h with
  | octets bs => exact (Reads.take bs).map _
  | number bs wide =>
    rw [reader_of_width? wide, Reader.number]
    exact ((Reads.take bs).map fun octets : Octets => littleEndian octets.toList).map _
  | compressed form => exact form.reads.map _
  | string form => exact form.reads.map _

theorem readsOnly_number {op : Operation} {width : Nat} (wide : op.width? = some width) :
    ReadsOnly op.reader op.Form := by
  rw [reader_of_width? wide, Reader.number]
  refine (((ReadsOnly.take width).map _).map _).weaken ?_
  rintro bs _ ⟨_, ⟨_, ⟨rfl, rfl⟩, rfl⟩, rfl⟩
  exact .number bs wide

theorem stopsOnly_number {op : Operation} {width : Nat} (wide : op.width? = some width) :
    StopsOnly op.reader op.Stuck := by
  rw [reader_of_width? wide]
  refine ((StopsOnly.number width).map _).weaken ?_
  rintro _ behind _ ⟨rfl, short, rfl⟩
  exact .number wide short

theorem readsOnly (op : Operation) : ReadsOnly op.reader op.Form := by
  cases op with
  | octets length =>
    refine ((ReadsOnly.take length).map _).weaken ?_
    rintro bs _ ⟨_, ⟨rfl, rfl⟩, rfl⟩
    exact .octets bs
  | octet | word | dword | index => exact readsOnly_number rfl
  | compressed =>
    refine (readsOnly_compressed.map _).weaken ?_
    rintro bs _ ⟨n, form, rfl⟩
    exact .compressed form
  | string =>
    refine (readsOnly_string.map _).weaken ?_
    rintro bs _ ⟨s, form, rfl⟩
    exact .string form

theorem stopsOnly (op : Operation) : StopsOnly op.reader op.Stuck := by
  cases op with
  | octets length =>
    refine ((StopsOnly.take length).map _).weaken ?_
    rintro _ behind _ ⟨rfl, short, rfl⟩
    exact .octets short
  | octet | word | dword | index => exact stopsOnly_number rfl
  | compressed => exact (stopsOnly_compressed.map _).weaken fun _ _ _ => .compressed
  | string => exact (stopsOnly_string.map _).weaken fun _ _ _ => .string

theorem Stuck.eq_nil {op : Operation} {bs behind : List UInt8} {why : Obstacle}
    (h : op.Stuck bs behind why) (plain : op.readsLength = false) : bs = [] := by
  cases h with
  | octets | number => rfl
  | compressed | string => cases plain

end Operation

/-! ## Runs -/

/-- An operation, what it gave, and the cursor before it and after it. -/
structure Step where
  operation : Operation
  before : Cursor
  result : Except Fault Item
  after : Cursor

def Operation.step (op : Operation) (c : Cursor) : Step :=
  match op.reader.run c with
  | .ok item after => ⟨op, c, .ok item, after⟩
  | .error f after => ⟨op, c, .error f, after⟩

@[simp] theorem Operation.before_step (op : Operation) (c : Cursor) : (op.step c).before = c := by
  rw [step]
  split <;> rfl

/-- Operations one after the other, whether they fail or not. -/
def steps : List Operation → Cursor → List Step
  | [], _ => []
  | op :: ops, c => op.step c :: steps ops (op.step c).after

/-- The cursor moves over the octets `bs`, in front of `behind`. -/
structure Step.Moves (s : Step) (bs behind : List UInt8) : Prop where
  ahead : s.before.Sees (bs ++ behind)
  after : s.after = s.before.moved bs.length
  /-- The result was read from these octets, and is read from them wherever they stand. -/
  read : ∀ item, s.result = .ok item →
    s.operation.Form bs item ∧ Reads s.operation.reader bs item
  /-- The operation stopped behind them. -/
  stopped : ∀ f, s.result = .error f →
    ∃ why, f = why.fault s.after ∧ s.operation.Stuck bs behind why

theorem Operation.moves (op : Operation) {c : Cursor} {all : List UInt8} (sees : c.Sees all) :
    ∃ bs behind, (op.step c).Moves bs behind := by
  rw [Operation.step]
  cases run : op.reader.run c with
  | ok item moved =>
    obtain ⟨bs, behind, rfl, rfl, form⟩ := op.readsOnly c moved all item sees run
    refine ⟨bs, behind, sees, rfl, ?_, ?_⟩
    · rintro _ ⟨⟩
      exact ⟨form, form.reads⟩
    · rintro _ ⟨⟩
  | error f moved =>
    obtain ⟨bs, behind, why, rfl, rfl, told, stuck⟩ := op.stopsOnly c moved all f sees run
    refine ⟨bs, behind, sees, rfl, ?_, ?_⟩
    · rintro _ ⟨⟩
    · rintro _ ⟨⟩
      exact ⟨why, told, stuck⟩

/-- The cursor stands in the octets of `d` from `origin` on. -/
structure Within (c : Cursor) (d : Octets) (origin : Nat) : Prop where
  data_eq : c.data = d
  origin_eq : c.origin = origin
  inside : origin + c.position ≤ d.size

namespace Step

variable {s : Step} {bs behind : List UInt8} {d : Octets} {origin : Nat}

theorem Moves.within (h : s.Moves bs behind) (stands : s.before.Within d origin) :
    s.after.Within d origin := by
  obtain ⟨rfl, rfl, -⟩ := stands
  have sees := h.ahead.moved
  rw [← h.after] at sees
  have inside := sees.inside
  rw [h.after] at inside ⊢
  exact ⟨rfl, rfl, inside⟩

theorem Moves.position_eq (h : s.Moves bs behind) :
    s.after.position = s.before.position + bs.length := by
  rw [h.after, position_moved]

theorem Moves.eq_before (h : s.Moves bs behind) (plain : s.operation.readsLength = false)
    {f : Fault} (failed : s.result = .error f) : s.after = s.before := by
  obtain ⟨why, -, stuck⟩ := h.stopped f failed
  obtain rfl := stuck.eq_nil plain
  exact h.after

end Step

theorem Within.sees {c : Cursor} {d : Octets} {origin : Nat} (h : c.Within d origin) :
    c.Sees (d.toList.drop (origin + c.position)) := by
  obtain ⟨rfl, rfl, inside⟩ := h
  exact ⟨inside, rfl⟩

theorem Within.remaining_eq {c : Cursor} {d : Octets} {origin : Nat}
    (h : c.Within d origin) : c.position + c.remaining = d.size - origin := by
  obtain ⟨rfl, rfl, inside⟩ := h
  rw [remaining, size]
  omega

/-- What each operation of a run keeps, the run keeps. -/
theorem steps_within {d : Octets} {origin : Nat} (ops : List Operation) {c : Cursor}
    (stands : c.Within d origin) {s : Step} (listed : s ∈ steps ops c) :
    s.before.Within d origin ∧ c.position ≤ s.before.position ∧ ∃ bs behind, s.Moves bs behind := by
  induction ops generalizing c with
  | nil => cases listed
  | cons op ops ih =>
    obtain ⟨bs, behind, moves⟩ := op.moves stands.sees
    have here := op.before_step c
    rcases List.mem_cons.mp listed with rfl | later
    · rw [here]
      exact ⟨stands, Nat.le_refl _, bs, behind, moves⟩
    · obtain ⟨within, least, moved⟩ := ih (moves.within (here.symm ▸ stands)) later
      have ahead := moves.position_eq
      rw [here] at ahead
      exact ⟨within, by omega, moved⟩

theorem steps_pairwise {d : Octets} {origin : Nat} (ops : List Operation) {c : Cursor}
    (stands : c.Within d origin) :
    (steps ops c).Pairwise fun s t => s.after.position ≤ t.after.position := by
  induction ops generalizing c with
  | nil => exact .nil
  | cons op ops ih =>
    obtain ⟨bs, behind, moves⟩ := op.moves stands.sees
    have after := moves.within ((op.before_step c).symm ▸ stands)
    refine .cons (fun t later => ?_) (ih after)
    obtain ⟨-, least, as, rest, moved⟩ := steps_within ops after later
    have ahead := moved.position_eq
    omega

/-- Whatever is asked of a cursor, it stays in its octets and never turns back. It moves over the
octets that a result was read from, over the length that was read before an operation failed, and
over none where an operation failed that reads no length. -/
theorem steps_move {d : Octets} {origin : Nat} (inside : origin ≤ d.size) (ops : List Operation) :
    (∀ s ∈ steps ops ⟨d, origin, 0⟩,
      s.before.Within d origin ∧ s.after.Within d origin ∧
      s.after.position + s.after.remaining = d.size - origin ∧
      s.before.position ≤ s.after.position ∧
      (∃ bs behind, s.Moves bs behind) ∧
      ∀ f, s.result = .error f → s.operation.readsLength = false → s.after = s.before) ∧
    (steps ops ⟨d, origin, 0⟩).Pairwise fun s t => s.after.position ≤ t.after.position := by
  have stands : Within ⟨d, origin, 0⟩ d origin := ⟨rfl, rfl, inside⟩
  refine ⟨fun s listed => ?_, steps_pairwise ops stands⟩
  obtain ⟨within, -, bs, behind, moves⟩ := steps_within ops stands listed
  have after := moves.within within
  have ahead := moves.position_eq
  exact ⟨within, after, after.remaining_eq, by omega, ⟨bs, behind, moves⟩,
    fun f failed plain => moves.eq_before plain failed⟩

/-- Behind one octet: two strings, of which the second is none, a number, and two lengths, of which
the first is cut short and the second announces more than there is. -/
def brokenOctets : Octets :=
  #[0x99, 0x02, 0x68, 0x69, 0xff, 0x34, 0x12, 0xc0, 0x01]

def askedOfBroken : List Operation :=
  [.string, .string, .octets 0xffffffffffffffff, .index 2, .compressed, .string, .octet]

theorem steps_move_broken :
    1 ≤ brokenOctets.size ∧
    (∀ s ∈ steps askedOfBroken ⟨brokenOctets, 1, 0⟩, ∃ bs behind, s.Moves bs behind) ∧
    ((steps askedOfBroken ⟨brokenOctets, 1, 0⟩).map fun s => s.after.position) =
      [3, 4, 4, 6, 7, 8, 8] := by
  have inside : 1 ≤ brokenOctets.size := by decide
  obtain ⟨each, -⟩ := steps_move inside askedOfBroken
  refine ⟨inside, fun s listed => ?_, by decide +kernel⟩
  obtain ⟨-, -, -, -, moves, -⟩ := each s listed
  exact moves

end Cursor

end WinFloor.Metadata

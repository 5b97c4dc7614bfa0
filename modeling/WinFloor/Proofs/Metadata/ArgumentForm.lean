import Mathlib.Data.List.Basic
import WinFloor.Proofs.Metadata.AttributeValue

/-!
Which octets are a compressed number, a string, a named argument, told apart from their reading. A
length may be written in more octets than it takes, and a text need not be in UTF-8, so there are
more forms than there are written values.

* `ReadsOnly r G`: what `r` gives has the form `G`, in the octets that `r` moves over;
* `readsOnly_namedArgument`, `ArgumentForm.reads`: the named arguments that are read are those which
  have the form of one.
-/
namespace WinFloor.Metadata

/-! ## Reading nothing else -/

/-- Whatever the reading gives, the octets it moved over are of the form `G` for it. -/
def ReadsOnly (r : Reader α) (G : List UInt8 → α → Prop) : Prop :=
  ∀ (c moved : Cursor) (all : List UInt8) (a : α), c.Sees all → r.run c = .ok a moved →
    ∃ bs behind, all = bs ++ behind ∧ moved = c.moved bs.length ∧ G bs a

namespace ReadsOnly

variable {r : Reader α} {next : α → Reader β} {G : List UInt8 → α → Prop}
  {H : List UInt8 → β → Prop}

theorem pure {a : α} (h : G [] a) : ReadsOnly (Pure.pure a) G := by
  rintro c moved all a sees ⟨⟩
  exact ⟨[], all, rfl, rfl, h⟩

theorem weaken {G' : List UInt8 → α → Prop} (h : ReadsOnly r G)
    (weaker : ∀ bs a, G bs a → G' bs a) : ReadsOnly r G' := by
  intro c moved all a sees run
  obtain ⟨bs, behind, split, same, form⟩ := h c moved all a sees run
  exact ⟨bs, behind, split, same, weaker bs a form⟩

theorem throw (f : Fault) : ReadsOnly (throw f : Reader α) G := by
  rintro c moved all a sees ⟨⟩

theorem bind (first : ReadsOnly r G)
    (second : ∀ as a, G as a → ReadsOnly (next a) fun bs b => H (as ++ bs) b) :
    ReadsOnly (r >>= next) H := by
  intro c moved all b sees run
  rw [EStateM.run_bind] at run
  cases one : r.run c with
  | error f between =>
    rw [one] at run
    cases run
  | ok a between =>
    rw [one] at run
    obtain ⟨as, rest, rfl, rfl, form⟩ := first c between all a sees one
    obtain ⟨bs, behind, rfl, rfl, whole⟩ := second as a form _ moved rest b sees.moved run
    refine ⟨as ++ bs, behind, (List.append_assoc as bs behind).symm, ?_, whole⟩
    rw [Cursor.moved_moved, List.length_append]

/-- Where all that is read is known, it is known to have the form. -/
theorem of_reads (only : ReadsOnly r G) {bs : List UInt8} {a : α} (reads : Reads r bs a) :
    G bs a := by
  have sees := Cursor.sees_start bs
  rw [← List.append_nil bs] at sees
  have run := reads _ [] sees
  obtain ⟨taken, behind, split, same, form⟩ := only _ _ _ a sees run
  have length : bs.length = taken.length := by
    have := congrArg Cursor.position same
    simpa [Cursor.start] using this
  rw [List.append_nil] at split
  have nothing : behind = [] := by
    have := congrArg List.length split
    rw [List.length_append] at this
    exact List.length_eq_zero_iff.mp (by omega)
  rw [nothing, List.append_nil] at split
  exact split ▸ form

theorem take (length : Nat) :
    ReadsOnly (Reader.take length) fun bs a => bs.length = length ∧ a = bs.toArray := by
  intro c moved all a sees run
  have inside := sees.inside
  have room := sees.length_eq
  change Reader.take length c = _ at run
  rw [Reader.take] at run
  split at run
  next fits =>
    rw [Cursor.size] at fits
    have count : (all.take length).length = length := by
      rw [List.length_take]
      omega
    cases run
    have split := (List.take_append_drop length all).symm
    refine ⟨all.take length, all.drop length, split, ?_, count, ?_⟩
    · rw [count]
      rfl
    · apply Array.toList_inj.mp
      rw [toList_extract_window, sees.ahead]
  next => cases run

theorem skip (length : Nat) : ReadsOnly (Reader.skip length) fun bs _ => bs.length = length := by
  apply (take length).bind
  rintro as a ⟨count, -⟩
  exact pure (by simpa using count)

theorem octet : ReadsOnly Reader.octet fun bs n => ∃ b : UInt8, bs = [b] ∧ n = b.toNat := by
  rw [Reader.octet, Reader.number, map_eq_pure_bind]
  apply (take 1).bind
  rintro as a ⟨count, rfl⟩
  obtain ⟨b, rfl⟩ := List.length_eq_one_iff.mp count
  exact pure ⟨b, rfl, by simp [littleEndian]⟩

end ReadsOnly

/-! ## Numbers and strings -/

/-- A number in one, two or four octets. -/
inductive CompressedForm : List UInt8 → Nat → Prop
  | one (lead : UInt8) (short : lead.toNat < 0x80) : CompressedForm [lead] lead.toNat
  | two (lead low : UInt8) (least : 0x80 ≤ lead.toNat) (most : lead.toNat < 0xc0) :
    CompressedForm [lead, low] ((lead.toNat - 0x80) * 0x100 + low.toNat)
  | four (lead high mid low : UInt8) (least : 0xc0 ≤ lead.toNat) (most : lead.toNat < 0xe0) :
    CompressedForm [lead, high, mid, low]
      ((((lead.toNat - 0xc0) * 0x100 + high.toNat) * 0x100 + mid.toNat) * 0x100 + low.toNat)

/-- No string, or octets behind their number, which are read as text. -/
inductive StringForm : List UInt8 → Option String → Prop
  | null : StringForm [0xff] none
  | text {length : List UInt8} (content : List UInt8)
    (sized : CompressedForm length content.length) :
    StringForm (length ++ content) (some (Text.Utf8.lenient content))

theorem twoOctets {lead : Nat} (low : Nat) (least : 0x80 ≤ lead) (most : lead < 0xc0) :
    (lead % 0x40) <<< 8 + low = (lead - 0x80) * 0x100 + low := by
  rw [Nat.shiftLeft_eq]
  omega

theorem fourOctets {lead : Nat} (high mid low : UInt8) (least : 0xc0 ≤ lead) (most : lead < 0xe0) :
    (lead % 0x20) <<< 24 + Reader.bigEndian [high, mid, low] =
      (((lead - 0xc0) * 0x100 + high.toNat) * 0x100 + mid.toNat) * 0x100 + low.toNat := by
  simp only [Reader.bigEndian, List.foldl_cons, List.foldl_nil, Nat.shiftLeft_eq]
  omega

theorem readsOnly_compressed : ReadsOnly Reader.compressed CompressedForm := by
  apply ReadsOnly.octet.bind
  rintro _ _ ⟨lead, rfl, rfl⟩
  split
  next short => exact .pure (.one lead short)
  next long =>
    split
    next most =>
      apply ReadsOnly.octet.bind
      rintro _ _ ⟨low, rfl, rfl⟩
      rw [twoOctets _ (Nat.not_lt.mp long) most]
      exact .pure (.two lead low (Nat.not_lt.mp long) most)
    next longer =>
      split
      next most =>
        apply (ReadsOnly.take 3).bind
        rintro _ _ ⟨three, rfl⟩
        obtain ⟨high, mid, low, rfl⟩ := List.length_eq_three.mp three
        rw [fourOctets high mid low (Nat.not_lt.mp longer) most]
        exact .pure (.four lead high mid low (Nat.not_lt.mp longer) most)
      next => exact .throw _

theorem CompressedForm.reads {bs : List UInt8} {n : Nat} (h : CompressedForm bs n) :
    Reads Reader.compressed bs n := by
  rw [Reader.compressed]
  cases h with
  | one lead short =>
    rw [← List.append_nil [lead]]
    apply (Reads.octet lead).bind
    rw [if_pos short]
    exact .pure _
  | two lead low least most =>
    rw [← List.singleton_append]
    apply (Reads.octet lead).bind
    rw [if_neg (Nat.not_lt.mpr least), if_pos most, ← twoOctets low.toNat least most]
    exact (Reads.octet low).bind_pure fun low => (lead.toNat % 0x40) <<< 8 + low
  | four lead high mid low least most =>
    have long : ¬ lead.toNat < 0x80 := by omega
    rw [← List.singleton_append]
    apply (Reads.octet lead).bind
    rw [if_neg long, if_neg (Nat.not_lt.mpr least), if_pos most,
      ← fourOctets high mid low least most]
    exact (Reads.take_of_length (by rfl)).bind_pure fun low : Octets =>
      (lead.toNat % 0x20) <<< 24 + Reader.bigEndian low.toList

/-- No form of a number starts as the absent string does. -/
theorem CompressedForm.eq_cons {bs : List UInt8} {n : Nat} (h : CompressedForm bs n) :
    ∃ lead rest, bs = lead :: rest ∧ lead ≠ Reader.nullString := by
  have apart {lead : UInt8} (most : lead.toNat < 0xe0) : lead ≠ Reader.nullString := by
    rintro rfl
    exact absurd most (by decide)
  cases h with
  | one lead short => exact ⟨lead, _, rfl, apart (by omega)⟩
  | two lead low _ most => exact ⟨lead, _, rfl, apart (by omega)⟩
  | four lead high mid low _ most => exact ⟨lead, _, rfl, apart most⟩

/-- The cursor moves behind the octet that stands for no string. -/
theorem reads_null :
    Reads (modify (fun c : Cursor => { c with position := c.position + 1 }) >>= fun _ =>
      (pure none : Reader (Option String))) [Reader.nullString] none :=
  fun _ _ _ => rfl

theorem Cursor.Sees.eq_cons_of_peek? {c : Cursor} {all : List UInt8} {b : UInt8} (h : c.Sees all)
    (next : c.peek? = some b) : ∃ rest, all = b :: rest := by
  cases all with
  | nil =>
    have past := h.length_eq
    rw [Cursor.peek?, Array.getElem?_eq_none (by rw [List.length_nil] at past; omega)] at next
    cases next
  | cons first rest =>
    rw [h.peek?, Option.some.injEq] at next
    exact ⟨rest, by rw [next]⟩

theorem readsOnly_string : ReadsOnly Reader.string StringForm := by
  intro c moved all s sees run
  rw [Reader.string, EStateM.run_bind, EStateM.run_get] at run
  by_cases null : c.peek? = some Reader.nullString
  · obtain ⟨rest, rfl⟩ := sees.eq_cons_of_peek? null
    simp only [null, ↓reduceIte] at run
    rw [reads_null c rest sees] at run
    cases run
    exact ⟨[Reader.nullString], rest, rfl, rfl, .null⟩
  · simp only [null, ↓reduceIte] at run
    have only : ReadsOnly (do
        let length ← Reader.compressed
        let octets ← Reader.take length
        return some (Text.Utf8.lenient octets.toList)) StringForm := by
      apply readsOnly_compressed.bind
      intro lead length sized
      apply (ReadsOnly.take length).bind
      rintro content _ ⟨rfl, rfl⟩
      exact .pure (by simpa using StringForm.text content sized)
    exact only c moved all s sees run

theorem StringForm.reads {bs : List UInt8} {s : Option String} (h : StringForm bs s) :
    Reads Reader.string bs s := by
  rw [Reader.string]
  apply Reads.get_bind
  intro c behind sees
  cases h with
  | null =>
    have there : c.peek? = some Reader.nullString := sees.peek?
    rw [if_pos there]
    exact reads_null c behind sees
  | @text length content sized =>
    have there : ¬ c.peek? = some Reader.nullString := by
      obtain ⟨lead, rest, rfl, apart⟩ := sized.eq_cons
      rw [sees.peek?, Option.some.injEq]
      exact apart
    rw [if_neg there]
    apply (sized.reads.bind ?_) c behind sees
    exact (Reads.take content).bind_pure fun octets : Octets =>
      some (Text.Utf8.lenient octets.toList)

/-! ## Named arguments -/

namespace AttributeValue

/-- The type of an argument. That of an enumeration comes with its name. -/
inductive TypeForm : List UInt8 → Nat → Prop
  | plain (type : UInt8) (known : type.toNat ≠ enumTag) : TypeForm [type] type.toNat
  | enumeration {name : List UInt8} {s : Option String} (named : StringForm name s) :
    TypeForm (0x55 :: name) enumTag

/-- A value of a type, and the text that it is if the type is that of texts. -/
inductive ValueForm : Nat → List UInt8 → Option String → Prop
  | text {bs : List UInt8} {s : Option String} (string : StringForm bs s) : ValueForm stringTag bs s
  | boolean (b : UInt8) : ValueForm booleanTag [b] none
  | number {type : Nat} {bs : List UInt8}
    (numeric : type = int32Tag ∨ type = uint32Tag ∨ type = enumTag) (wide : bs.length = 4) :
    ValueForm type bs none

/-- An argument of a known type, with its name, which is empty if there is none, and its text. -/
inductive ArgumentForm : List UInt8 → String × Option String → Prop
  | mk {kind : UInt8} {typed named valued : List UInt8} {type : Nat} {name value : Option String}
    (member : kind.toNat = fieldTag ∨ kind.toNat = propertyTag) (isType : TypeForm typed type)
    (isName : StringForm named name) (isValue : ValueForm type valued value) :
    ArgumentForm ([kind] ++ (typed ++ (named ++ valued))) (name.getD "", value)

/-- What follows the type of an argument. -/
def nameAndValue (type : Nat) : Reader (Option (String × Option String)) := do
  let name := (← Reader.string).getD ""
  if type = stringTag then
    return some (name, ← Reader.string)
  else if type = booleanTag then
    Reader.skip 1
    return some (name, none)
  else if type = int32Tag ∨ type = uint32Tag ∨ type = enumTag then
    Reader.skip 4
    return some (name, none)
  else return none

theorem namedArgument_eq :
    namedArgument = (do
      let kind ← Reader.octet
      if kind ≠ fieldTag ∧ kind ≠ propertyTag then return none
      let type ← Reader.octet
      if type = enumTag then
        let _enumName ← Reader.string
        nameAndValue type
      else nameAndValue type) :=
  rfl

theorem readsOnly_nameAndValue (type : Nat) :
    ReadsOnly (nameAndValue type) fun bs argument? => ∀ argument, argument? = some argument →
      ∃ named valued name value, bs = named ++ valued ∧ StringForm named name ∧
        ValueForm type valued value ∧ argument = (name.getD "", value) := by
  apply readsOnly_string.bind
  intro named name isName
  split
  next isText =>
    apply readsOnly_string.bind
    intro valued value isValue
    apply ReadsOnly.pure
    rintro _ ⟨⟩
    exact ⟨named, valued, name, value, by simp, isName, isText ▸ .text isValue, rfl⟩
  split
  next isBoolean =>
    apply (ReadsOnly.skip 1).bind
    intro valued _ one
    obtain ⟨b, rfl⟩ := List.length_eq_one_iff.mp one
    apply ReadsOnly.pure
    rintro _ ⟨⟩
    exact ⟨named, [b], name, none, by simp, isName, isBoolean ▸ .boolean b, rfl⟩
  split
  next isNumber =>
    apply (ReadsOnly.skip 4).bind
    intro valued _ four
    apply ReadsOnly.pure
    rintro _ ⟨⟩
    exact ⟨named, valued, name, none, by simp, isName, .number isNumber four, rfl⟩
  next =>
    apply ReadsOnly.pure
    rintro _ ⟨⟩

theorem readsOnly_namedArgument :
    ReadsOnly namedArgument fun bs argument? =>
      ∀ argument, argument? = some argument → ArgumentForm bs argument := by
  rw [namedArgument_eq]
  apply ReadsOnly.octet.bind
  rintro _ _ ⟨kind, rfl, rfl⟩
  split
  next =>
    apply ReadsOnly.pure
    rintro _ ⟨⟩
  next known =>
    have member : kind.toNat = fieldTag ∨ kind.toNat = propertyTag := by omega
    apply ReadsOnly.octet.bind
    rintro _ _ ⟨type, rfl, rfl⟩
    have rest {typed : List UInt8} (isType : TypeForm typed type.toNat) :
        ReadsOnly (nameAndValue type.toNat) fun bs argument? => ∀ argument,
          argument? = some argument → ArgumentForm ([kind] ++ (typed ++ bs)) argument := by
      apply (readsOnly_nameAndValue _).weaken
      intro bs argument? form argument given
      obtain ⟨named, valued, name, value, rfl, isName, isValue, rfl⟩ := form argument given
      exact .mk member isType isName isValue
    split
    next isEnum =>
      apply readsOnly_string.bind
      intro enumName s isEnumName
      have tag : type = 0x55 := UInt8.toNat_inj.mp isEnum
      subst tag
      simpa using rest (.enumeration isEnumName)
    next plain => simpa using rest (.plain type plain)

theorem reads_nameAndValue {type : Nat} {named valued : List UInt8} {name value : Option String}
    (isName : StringForm named name) (isValue : ValueForm type valued value) :
    Reads (nameAndValue type) (named ++ valued) (some (name.getD "", value)) := by
  apply isName.reads.bind
  cases isValue with
  | text string =>
    rw [if_pos rfl]
    exact string.reads.bind_pure fun value => some (name.getD "", value)
  | boolean b =>
    rw [if_neg (by decide), if_pos rfl]
    exact (Reads.skip (by rfl)).bind_pure fun _ => some (name.getD "", none)
  | number numeric wide =>
    have noText : type ≠ stringTag := by
      rcases numeric with rfl | rfl | rfl <;> decide
    have noBoolean : type ≠ booleanTag := by
      rcases numeric with rfl | rfl | rfl <;> decide
    rw [if_neg noText, if_neg noBoolean, if_pos numeric]
    exact (Reads.skip wide).bind_pure fun _ => some (name.getD "", none)

theorem ArgumentForm.reads {bs : List UInt8} {argument : String × Option String}
    (h : ArgumentForm bs argument) : Reads namedArgument bs (some argument) := by
  rw [namedArgument_eq]
  cases h with
  | @mk kind typed named valued type name value member isType isName isValue =>
    apply (Reads.octet kind).bind
    rw [if_neg (by omega)]
    cases isType with
    | plain type known =>
      apply (Reads.octet type).bind
      rw [if_neg known]
      exact reads_nameAndValue isName isValue
    | enumeration isEnumName =>
      rw [List.cons_append, ← List.singleton_append]
      have tag : (0x55 : UInt8).toNat = enumTag := rfl
      apply (Reads.octet 0x55).bind
      rw [if_pos tag]
      exact isEnumName.reads.bind (reads_nameAndValue isName isValue)

/-- The octets begin with an argument of a known type. -/
def StartsArgument (bs : List UInt8) : Prop :=
  ∃ first rest argument, bs = first ++ rest ∧ ArgumentForm first argument

/-- What is read as a named argument is what has the form of one. -/
theorem startsArgument_iff {c : Cursor} {bs : List UInt8} (sees : c.Sees bs) :
    StartsArgument bs ↔ ∃ argument moved, namedArgument.run c = .ok (some argument) moved := by
  constructor
  · rintro ⟨first, rest, argument, rfl, form⟩
    exact ⟨argument, _, form.reads c rest sees⟩
  · rintro ⟨argument, moved, run⟩
    obtain ⟨first, rest, rfl, -, form⟩ := readsOnly_namedArgument c moved bs _ sees run
    exact ⟨first, rest, argument, rfl, form argument rfl⟩

end AttributeValue

end WinFloor.Metadata

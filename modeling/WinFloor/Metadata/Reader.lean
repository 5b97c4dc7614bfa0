import WinFloor.Octets

/-!
Reading octets one after the other, as the tables, heaps and attribute values of metadata are laid
out. A read that fails leaves the cursor behind what it could still read.
-/
namespace WinFloor.Metadata

/-- A place in the octets of `data` from `origin` on; places count from there. -/
structure Cursor where
  data : Octets
  origin : Nat
  position : Nat

namespace Cursor

def start (data : Octets) : Cursor := ⟨data, 0, 0⟩

/-- How many octets there are to read in all. -/
def size (c : Cursor) : Nat := c.data.size - c.origin

def remaining (c : Cursor) : Nat := c.size - c.position

def peek? (c : Cursor) : Option UInt8 := c.data[c.origin + c.position]?

end Cursor

/-- A reading of something: it moves the cursor, also where it fails. -/
abbrev Reader := EStateM Fault Cursor

/-- What a reading gives, without the cursor behind it. -/
def Reader.value (r : Reader α) (c : Cursor) : Except Fault α :=
  match r.run c with
  | .ok a _ => .ok a
  | .error f _ => .error f

namespace Reader

/-- The next `length` octets. -/
def take (length : Nat) : Reader Octets := fun c =>
  if c.position + length ≤ c.size then
    let first := c.origin + c.position
    .ok (c.data.extract first (first + length)) { c with position := c.position + length }
  else .error (.outOfBounds c.position c.size) c

def skip (length : Nat) : Reader Unit := do
  let _ ← take length

/-- The number in the next `width` octets, the lowest first. -/
def number (width : Nat) : Reader Nat :=
  (littleEndian ·.toList) <$> take width

def octet : Reader Nat := number 1
def word : Reader Nat := number 2
def dword : Reader Nat := number 4

/-- An index into a heap or table, of two octets or of four. -/
def index (width : Nat) : Reader Nat :=
  if width = 2 then word else dword

/-- The number whose octets are given, the highest first. -/
def bigEndian (bs : List UInt8) : Nat :=
  bs.foldl (fun n b => n * 256 + b.toNat) 0

/-- A number below 2^29, in one, two or four octets; the first bits of the first octet tell how
many. -/
def compressed : Reader Nat := do
  let lead ← octet
  if lead < 0x80 then return lead
  else if lead < 0xc0 then
    let low ← octet
    return (lead % 0x40) <<< 8 + low
  else if lead < 0xe0 then
    let low ← take 3
    return (lead % 0x20) <<< 24 + bigEndian low.toList
  else throw (.metadata (.compressedLead lead))

/-- The octet that stands for no string; no compressed number starts with it. -/
def nullString : UInt8 := 0xff

/-- A string behind its compressed length, or none. -/
def string : Reader (Option String) := do
  if (← get).peek? = some nullString then
    modify fun c => { c with position := c.position + 1 }
    return none
  else
    let length ← compressed
    let octets ← take length
    return some (Text.Utf8.lenient octets.toList)

end Reader

end WinFloor.Metadata

import WinFloor.Metadata.Reader

/-!
The root of metadata: a version text and the streams, of which the tables, the strings and the blobs
are used here.
-/
namespace WinFloor.Metadata

/-- `BSJB`. -/
def signature : List UInt8 := [0x42, 0x53, 0x4a, 0x42]

/-- The octets up to a zero octet, which is passed too. -/
def Reader.untilZero : Reader Octets := do
  let c ← get
  match c.data.zeroFrom? (c.origin + c.position) with
  | some stop =>
    let octets ← take (stop - (c.origin + c.position))
    skip 1
    return octets
  | none =>
    set { c with position := c.size }
    throw (.outOfBounds c.size c.size)

/-- The text before the first zero octet; empty where it is not UTF-8. -/
def textBeforeZero (octets : Octets) : String :=
  let stop := (octets.zeroFrom? 0).getD octets.size
  (Text.Utf8.strict? (octets.extract 0 stop).toList).getD ""

/-- A part of the metadata. -/
structure Span where
  offset : Nat
  size : Nat
  deriving DecidableEq, Repr

def Span.isWithin (s : Span) (d : Octets) : Bool := s.offset + s.size ≤ d.size

def Span.octets (s : Span) (d : Octets) : Octets := d.extract s.offset (s.offset + s.size)

structure StreamHeader where
  name : String
  span : Span
  deriving DecidableEq, Repr

/-- How many octets fill a name and its zero up to a multiple of four. -/
def namePadding (length : Nat) : Nat := (4 - length % 4) % 4

def StreamHeader.read : Reader StreamHeader := do
  let offset ← Reader.dword
  let size ← Reader.dword
  let name ← Reader.untilZero
  Reader.skip (namePadding (name.size + 1))
  return { name := (Text.Utf8.strict? name.toList).getD "", span := { offset, size } }

/-- The streams found so far. -/
structure Streams where
  tables : Option Span
  strings : Span
  blobs : Span
  deriving DecidableEq, Repr

namespace Streams

def none : Streams := ⟨.none, ⟨0, 0⟩, ⟨0, 0⟩⟩

/-- The last stream of a name counts. The tables have two names. -/
def record (s : Streams) (header : StreamHeader) : Streams :=
  if header.name = "#~" ∨ header.name = "#-" then { s with tables := some header.span }
  else if header.name = "#Strings" then { s with strings := header.span }
  else if header.name = "#Blob" then { s with blobs := header.span }
  else s

/-- Reads `count` headers. A stream of whatever name has to lie within the metadata. -/
def read : (count : Nat) → (found : Streams) → Reader Streams
  | 0, found => pure found
  | count + 1, found => do
    let header ← StreamHeader.read
    if header.span.isWithin (← get).data then read count (found.record header)
    else throw (.metadata (.streamOutOfBounds header.name))

end Streams

structure Root where
  version : String
  tables : Octets
  strings : Octets
  blobs : Octets

namespace Root

/-- What stands in front of the version: the signature and three fields of no use here. -/
def preambleSize : Nat := 12

def readVersion : Reader String := do
  let length ← Reader.dword
  let c ← get
  match (Reader.take length).run c with
  | .ok octets c =>
    set c
    return textBeforeZero octets
  | .error _ _ => throw (.metadata .versionTruncated)

def reader : Reader Root := do
  let d := (← get).data
  if d.size < 16 || !d.startsWith signature then throw (.metadata .missingSignature)
  Reader.skip preambleSize
  let version ← readVersion
  let _flags ← Reader.word
  let count ← Reader.word
  let streams ← Streams.read count .none
  match streams.tables with
  | none => throw (.metadata .noTableStream)
  | some tables =>
    return { version, tables := tables.octets d, strings := streams.strings.octets d,
             blobs := streams.blobs.octets d }

def read (d : Octets) : Except Fault Root :=
  reader.value (.start d)

end Root

end WinFloor.Metadata

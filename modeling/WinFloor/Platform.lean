import WinFloor.Text.Digit

/-!
Platform texts such as `windows10.0.19041`, and the Windows build each one asks for.
-/
namespace WinFloor.Platform

/-- The first build of a Windows version; zero for versions it says nothing about. -/
def buildOfVersion : (major minor : Nat) → Nat
  | 6, 0 => 6000
  | 6, 1 | 7, 0 => 7600
  | 6, 2 | 8, 0 => 9200
  | 6, 3 | 8, 1 => 9600
  | 10, 0 => 10240
  | _, _ => 0

/-- From this number on, a segment of a version is itself a build. -/
def leastBuild : Nat := 10000

/-- The segments of the version that the digits `cs` begin: digits, and as long as they follow, a
point with more digits. -/
def segments (segment : List Char) : List Char → List (List Char)
  | [] => [segment.reverse]
  | '.' :: c :: rest =>
    if Text.isDecimal c then segment.reverse :: segments [c] rest else [segment.reverse]
  | c :: rest => if Text.isDecimal c then segments (c :: segment) rest else [segment.reverse]

/-- The segments of the first version in a text; none where it has no digit. -/
def version (text : List Char) : List (List Char) :=
  match text.dropWhile fun c => !Text.isDecimal c with
  | [] => []
  | c :: rest => segments [c] rest

/-- The number a segment writes in ASCII digits, if it fits in 32 bits. -/
def number? (segment : List Char) : Option Nat :=
  segment.foldlM (fun n c =>
    let next := n * 10 + (c.toNat - '0'.toNat)
    if c.isDigit ∧ next < UInt32.size then some next else none) 0

/-- The build that the segments of a version ask for: the largest that is a build itself, else the
first build of the version they write. -/
def buildOfSegments (numbers : List Nat) : Nat :=
  match (numbers.filter (leastBuild ≤ ·)).max? with
  | some build => build
  | none =>
    match numbers with
    | [] => 0
    | [major] => buildOfVersion major 0
    | major :: minor :: _ => buildOfVersion major minor

/-- The build a platform text asks for. Segments that are no 32-bit number do not count. -/
def build (platform : String) : Nat :=
  buildOfSegments ((version platform.toList).filterMap number?)

/-- What a declared function needs: the least build, or zero where none is recorded, and the text
that said so. -/
structure Requirement where
  build : Nat
  platform : String
  deriving DecidableEq, Repr

def Requirement.none : Requirement := ⟨0, ""⟩

def Requirement.ofPlatform (platform : String) : Requirement :=
  ⟨Platform.build platform, platform⟩

end WinFloor.Platform

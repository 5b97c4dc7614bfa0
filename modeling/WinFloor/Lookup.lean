import WinFloor.Match
import WinFloor.Octets
import WinFloor.Text.Lines
import WinFloor.Text.Record

/-!
Looking functions up in bulk: lines of a module and a symbol in, records of what they need out.
Lines that cannot be read are passed over with a warning.
-/
namespace WinFloor.Lookup

/-- A line of input. -/
inductive Line
  /-- Blank, or a comment behind `#`. -/
  | skip
  | malformed
  | query (moduleName symbol : String)
  deriving DecidableEq, Repr

def Line.read (text : String) : Line :=
  let trimmed := Text.trim text
  if trimmed = "" ∨ trimmed.toList.head? = some '#' then .skip
  else
    match Text.Record.split? trimmed with
    | some [moduleName, symbol] =>
      let moduleName := Text.trim moduleName
      let symbol := Text.trim symbol
      if moduleName = "" ∨ symbol = "" then .malformed else .query moduleName symbol
    | _ => .malformed

/-- Why a line was passed over. -/
inductive Trouble
  | notUtf8
  | malformed
  deriving DecidableEq, Repr

def Trouble.message : Trouble → String
  | notUtf8 => "skipping non-UTF-8 lookup line"
  | malformed => "skipping malformed lookup line"

structure Warning where
  line : Nat
  trouble : Trouble
  deriving DecidableEq, Repr

/-- What a line comes to. -/
inductive Outcome
  | nothing
  | trouble (trouble : Trouble)
  | record (fields : List String)
  deriving DecidableEq, Repr

/-- The record for a function. -/
def recordOf (m : Matcher) (moduleName symbol : String) : List String :=
  let found := m.resolve moduleName symbol
  [moduleName, symbol, toString found.build, found.reason moduleName symbol]

def outcome (m : Matcher) (octets : List UInt8) : Outcome :=
  match Text.Utf8.strict? octets with
  | none => .trouble .notUtf8
  | some text =>
    match Line.read text with
    | .skip => .nothing
    | .malformed => .trouble .malformed
    | .query moduleName symbol => .record (recordOf m moduleName symbol)

def lineFeed : UInt8 := 0x0a

/-- The lines of the input, each without its line feed; behind the last line feed there is a line
only if anything stands there. The reversed `line` has been begun, the reversed `done` are
complete. -/
def linesAfter (done : List (List UInt8)) (line : List UInt8) : List UInt8 → List (List UInt8)
  | [] => if line.isEmpty then done.reverse else (line.reverse :: done).reverse
  | b :: rest =>
    if b = lineFeed then linesAfter (line.reverse :: done) [] rest
    else linesAfter done (b :: line) rest

def lines (input : Octets) : List (List UInt8) :=
  linesAfter [] [] input.toList

def heading : String := "module,symbol,minBuild,reason"

/-- What a run gives. -/
structure Run where
  lookedUp : Nat
  skipped : Nat
  output : String
  warnings : List Warning
  deriving DecidableEq, Repr

def run (m : Matcher) (input : Octets) : Run :=
  let outcomes := (lines input).map (outcome m)
  let records := outcomes.filterMap fun
    | .record fields => some (Text.Record.line fields)
    | _ => none
  let warnings := (outcomes.zipIdx 1).filterMap fun
    | (.trouble t, n) => some { line := n, trouble := t : Warning }
    | _ => none
  { lookedUp := records.length
    skipped := warnings.length
    output := Text.unlines (heading :: records)
    warnings }

end WinFloor.Lookup

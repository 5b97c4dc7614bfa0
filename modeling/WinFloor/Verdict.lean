import WinFloor.Image.Header
import WinFloor.Import.Symbol
import WinFloor.Match

/-!
Verdicts: the least build that an image runs on, and the reason. Its symbols give one and its header
another; the higher one counts.
-/
namespace WinFloor

structure Verdict where
  build : Nat
  reason : String
  deriving DecidableEq, Repr

namespace Verdict

def unknown : Verdict := ⟨0, Match.unknownReason⟩

/-- The higher of two verdicts, the first on a tie. -/
def max (a b : Verdict) : Verdict := if a.build < b.build then b else a

@[simp] theorem build_max (a b : Verdict) : (a.max b).build = Nat.max a.build b.build := by
  unfold max
  split <;> simp only [Nat.max_def] <;> split <;> omega

/-- What a version in the header says. -/
def ofVersion (label : String) (v : Image.Version) : Verdict :=
  let major := v.major.toNat
  let minor := v.minor.toNat
  ⟨Platform.buildOfVersion major minor, s!"{label} version {major}.{minor}"⟩

def ofHeader (h : Image.Header) : Verdict :=
  (unknown.max (ofVersion "os" h.osVersion)).max (ofVersion "subsystem" h.subsystemVersion)

end Verdict

/-- What decided: the symbols needed, or the header. -/
inductive Signal
  | api
  | header
  deriving DecidableEq, Repr

def Signal.text : Signal → String
  | api => "api"
  | header => "header"

/-- A verdict, and where it came from. -/
structure Decision where
  verdict : Verdict
  signal : Signal
  deriving DecidableEq, Repr

/-- The symbols decide unless the header asks for more. Where there was a choice, the reason says
what was chosen. -/
def Decision.of (api : Verdict) (header : Option Verdict) : Decision :=
  match header with
  | none => ⟨api, .api⟩
  | some header =>
    if api.build < header.build then
      ⟨{ header with reason := "header: " ++ header.reason }, .header⟩
    else ⟨{ api with reason := "api: " ++ api.reason }, .api⟩

/-- The verdict of the symbols, with how many were found, and how many of them at a host. -/
structure ApiVerdict where
  verdict : Verdict
  mapped : Nat
  fallbacks : Nat
  deriving DecidableEq, Repr

namespace ApiVerdict

def start : ApiVerdict := ⟨.unknown, 0, 0⟩

/-- Counts one function. -/
def add (v : ApiVerdict) (moduleName symbol : String) (m : Match) : ApiVerdict :=
  match m with
  | .miss => v
  | m =>
    { verdict := v.verdict.max ⟨m.build, m.reason moduleName symbol⟩
      mapped := v.mapped + 1
      fallbacks := if m.isFallback then v.fallbacks + 1 else v.fallbacks }

end ApiVerdict

/-- The verdict of symbols. Those without a name say nothing, and the first of the highest gives the
reason. -/
def Matcher.verdict (m : Matcher) (symbols : Import.SymbolList) : ApiVerdict :=
  symbols.toList.foldl (fun v s =>
    match s.name with
    | .named text => v.add s.moduleName text (m.resolve s.moduleName text)
    | .ordinal _ => v) .start

end WinFloor

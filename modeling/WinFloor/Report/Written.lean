import WinFloor.Assessment
import WinFloor.Report.Color
import WinFloor.Report.Style
import WinFloor.Text.Lines
import WinFloor.Text.Quoted
import WinFloor.Text.Record

/-!
Reports on assessments, in four styles: for people, as lines of keys and values, as one JSON record
a line, and as a CSV table.
-/
namespace WinFloor.Report

/-- How a report is written. Colors show only on a terminal, and only if wanted. -/
structure Options where
  style : Style
  wantsColor : Bool
  onTerminal : Bool
  verbose : Bool
  deriving DecidableEq, Repr

def Options.paint (o : Options) (c : Color) (text : String) : String :=
  if o.wantsColor && o.onTerminal then c.paint text else text

/-- The fields of an assessment in their order, with their keys. Texts are told from numbers. -/
inductive Value
  | text (text : String)
  | number (n : Nat)
  deriving DecidableEq, Repr

def Value.plain : Value → String
  | text t => t
  | number n => toString n

def Value.json : Value → String
  | text t => Text.Quoted.literal t
  | number n => toString n

def fields (a : Assessment) : List (String × Value) :=
  [("binary_path", .text a.path),
   ("bitness", .number a.bits),
   ("architecture", .text a.architecture),
   ("import_count", .number a.symbols),
   ("delay_import_count", .number a.delayed),
   ("mapped_count", .number a.mapped),
   ("fallback_count", .number a.fallbacks),
   ("required_build", .number a.build),
   ("required_reason", .text a.reason),
   ("signal", .text a.signal.text)]

def keys : List String :=
  ["binary_path", "bitness", "architecture", "import_count", "delay_import_count", "mapped_count",
   "fallback_count", "required_build", "required_reason", "signal"]

theorem map_fst_fields (a : Assessment) : (fields a).map Prod.fst = keys := rfl

def textLines (a : Assessment) : List String :=
  (fields a).map fun (key, value) => key ++ "=" ++ value.plain

def jsonLine (a : Assessment) : String :=
  let members := (fields a).map fun (key, value) => Text.Quoted.literal key ++ ":" ++ value.json
  "\x7b" ++ ",".intercalate members ++ "\x7d"

def csvLine (a : Assessment) : String :=
  Text.Record.line ((fields a).map fun (_, value) => value.plain)

def csvHeading : String := Text.Record.line keys

def rule : String := String.ofList (List.replicate 50 '=')

def prettyLines (o : Options) (a : Assessment) : List String :=
  let ratio := s!"{a.mapped}/{a.symbols}"
  let ratio := if a.mapped < a.symbols then o.paint .yellow ratio else ratio
  let build :=
    if a.build = 0 then o.paint .green "0 (no recorded minimum)"
    else o.paint .red (toString a.build)
  [o.paint .cyan "Minimum Windows Build",
   rule,
   s!"Binary: {a.path}",
   s!"Architecture: {a.architecture} ({a.bits}-bit)",
   s!"Imports: {a.symbols} ({a.delayed} delay-loaded)",
   s!"Mapped: {ratio}"] ++
  (if a.fallbacks = 0 then []
   else ["  " ++ o.paint .yellow (toString a.fallbacks) ++ " via api-set fallback"]) ++
  [s!"Required build: {build}",
   s!"Reason: {a.reason}"] ++
  (if o.verbose then ["Signal: " ++ o.paint .blue a.signal.text] else [])

/-- Blocks of lines with an empty line between them. -/
def separated (blocks : List (List String)) : List String :=
  [""].intercalate blocks

/-- The lines of a report. -/
def lines (o : Options) (assessments : List Assessment) : List String :=
  match o.style with
  | .pretty => separated (assessments.map (prettyLines o))
  | .text => separated (assessments.map textLines)
  | .json => assessments.map jsonLine
  | .csv => csvHeading :: assessments.map csvLine

/-- Each line with a line feed. -/
def written (o : Options) (assessments : List Assessment) : String :=
  Text.unlines (lines o assessments)

end WinFloor.Report

import WinFloor.Assessment
import WinFloor.Command.Invocation
import WinFloor.Files.Entry
import WinFloor.Files.Path
import WinFloor.Import.Walk
import WinFloor.Lookup
import WinFloor.Metadata.Native
import WinFloor.Metadata.Wrapper
import WinFloor.Report.Written

/-!
The program: loading metadata, assessing binaries, looking functions up, and what a run prints.
Files are seen through a function that says what a path leads to.
-/
namespace WinFloor.Program

open Files

/-- The catalog of what the metadata in a file declares. -/
def catalogOf (content : Octets) : Except Fault Catalog := do
  let root ← Metadata.locate content
  let db ← Metadata.Database.read root
  return .ofList db.declarations

/-- A binary: its headers and what it needs. -/
structure Binary where
  header : Image.Header
  symbols : Import.SymbolList

def Binary.read (content : Octets) : Except Fault Binary := do
  let header ← Image.Header.read content
  return ⟨header, Import.walk content header⟩

/-- The path in a file that points at metadata. -/
def pointerTarget? (content : Octets) : Option String :=
  (Text.Utf8.strict? content.toList).bind Text.firstLine?

section

variable {m : Type → Type} [Monad m] (look : String → m Entry)

/-- Fails with a fault that was met in a step. -/
def failWithin (step : String) (f : Fault) : ExceptT Failure m α :=
  throw ((Failure.ofFault f).within step)

def fail (f : Fault) : ExceptT Failure m α :=
  throw (Failure.ofFault f)

/-- The content of a metadata file. -/
def readMetadata (path : String) : ExceptT Failure m Octets := do
  match ← look path with
  | .file content => return content
  | .unreadable reason => failWithin s!"Failed to read metadata '{path}'" (.system reason)
  | .directory | .missing _ => fail (.metadataMissing path)

/-- The path of the metadata itself: the path given, or the one that the file there points at. -/
def metadataPath (path : String) : ExceptT Failure m String := do
  let content ← readMetadata look path
  if Metadata.isMetadata content then return path
  match pointerTarget? content with
  | none => fail (.metadata (.notAPointer path))
  | some target =>
    let resolved := Path.join (Path.parent path) target
    if (← look resolved).isFile then return resolved else fail (.metadataMissing resolved)

def loadCatalog (path : String) : ExceptT Failure m Catalog := do
  let path ← metadataPath look path
  match catalogOf (← readMetadata look path) with
  | .ok catalog => return catalog
  | .error f => failWithin s!"Failed to load metadata '{path}'" f

/-- Assesses the binary at a path. -/
def assess (matcher : Matcher) (withHeader : Bool) (path : String) :
    m (Except Failure Assessment) := do
  match ← look path with
  | .file content =>
    match Binary.read content with
    | .ok b => return .ok (matcher.assess path b.header b.symbols withHeader)
    | .error f => return .error ((Failure.ofFault f).within s!"Failed to analyze '{path}'")
  | .unreadable reason =>
    return .error ((Failure.ofFault (.system reason)).within s!"Failed to read binary '{path}'")
  | .directory | .missing _ => return .error (.ofFault (.binaryMissing path))

/-- Assesses the binaries, in their order. -/
def assessAll (matcher : Matcher) (withHeader : Bool) (paths : List String) :
    m (List (Except Failure Assessment)) :=
  paths.mapM (assess look matcher withHeader)

/-- What a run prints and how it ends: with an exit code, or with a failure. -/
structure Outcome where
  ending : Except Failure Nat
  output : String
  errors : String
  warnings : List Lookup.Warning

def Outcome.failed (f : Failure) : Outcome := ⟨.error f, "", "", []⟩

/-- The line that tells of a failure. -/
def errorLine (f : Failure) : String := "Error: " ++ f.message

/-- The exit code of the first failure, zero if there is none. -/
def exitCode (failures : List Failure) : Nat :=
  (failures.head?.map Failure.exitCode).getD 0

/-- Reports on what could be assessed, and tells of the failures. -/
def report (o : Report.Options) (results : List (Except Failure Assessment)) : Outcome :=
  let assessments := results.filterMap Except.toOption
  let failures := results.filterMap fun
    | .error f => some f
    | .ok _ => none
  { ending := .ok (exitCode failures)
    output := Report.written o assessments
    errors := Text.unlines (failures.map errorLine)
    warnings := [] }

/-- What a lookup of the given input comes to. -/
def lookupIn (matcher : Matcher) (input : Octets) : Outcome :=
  let run := Lookup.run matcher input
  { ending := .ok 0, output := run.output, errors := "", warnings := run.warnings }

/-- Looks functions up: the lines of the file at the path, or those of the standard input. A
directory can be opened, but fails when it is read. -/
def lookup (standardInput : m Octets) (matcher : Matcher) (input : Option String) : m Outcome := do
  match input with
  | none => return lookupIn matcher (← standardInput)
  | some path =>
    match ← look path with
    | .file content => return lookupIn matcher content
    | .directory =>
      return { ending := .error ⟨[], .other Refusal.isADirectory⟩
               output := Text.unlines [Lookup.heading], errors := "", warnings := [] }
    | .unreadable reason | .missing reason =>
      return .failed ⟨[s!"Failed to open input '{path}'"], .other reason⟩

/-- The report that an invocation asks for. The option for JSON wins over the format. -/
def options (i : Command.Invocation) (json onTerminal : Bool) : Report.Options :=
  { style := if json then .json else i.style
    wantsColor := !i.noColor
    onTerminal
    verbose := i.verbose }

/-- Runs what the command line asks for. An analysis without binaries looks functions up. -/
def run (standardInput : m Octets) (onTerminal : Bool) (i : Command.Invocation) : m Outcome := do
  match i.task with
  | .analyze metadata binaries json withHeader =>
    match ← (loadCatalog look metadata).run with
    | .error f => return .failed f
    | .ok catalog =>
      let matcher := ⟨catalog, .standard⟩
      if binaries.isEmpty then lookup look standardInput matcher none
      else
        let results ← assessAll look matcher withHeader binaries
        return report (options i json onTerminal) results
  | .lookup metadata input =>
    match ← (loadCatalog look metadata).run with
    | .error f => return .failed f
    | .ok catalog => lookup look standardInput ⟨catalog, .standard⟩ input

end

/-- Which messages are logged. -/
def logFilter (verbose : Bool) : String :=
  if verbose then "minbuild=debug" else "warn"

end WinFloor.Program

import WinFloor.Text.Numeral

/-!
What can go wrong: each cause with its wording and the exit code it stands for, and a failure as a
cause seen through the steps that led to it.
-/
namespace WinFloor

/-- A defect in the headers of a PE image. -/
inductive ImageDefect
  | coffHeaderTruncated
  | optionalHeaderTruncated
  | optionalHeaderTooSmall (size : Nat)
  | sectionTableTruncated (index count : Nat)
  | described (text : String)
  deriving DecidableEq, Repr

def ImageDefect.message : ImageDefect → String
  | .coffHeaderTruncated => "COFF header truncated"
  | .optionalHeaderTruncated => "optional header truncated"
  | .optionalHeaderTooSmall size => s!"optional header too small: {size} bytes"
  | .sectionTableTruncated index count => s!"section table truncated at section {index} of {count}"
  | .described text => text

/-- A defect in a metadata file. -/
inductive MetadataDefect
  | missingSignature
  | versionTruncated
  | streamOutOfBounds (name : String)
  | noTableStream
  | tableHeaderTruncated
  | unsupportedTable (id : Nat)
  | tableTruncated (id : Nat)
  | compressedLead (octet : Nat)
  | attributeProlog (word : Nat)
  | readPastEnd (offset size : Nat)
  | wrapper (message : String)
  | noCliHeader
  | cliHeaderTruncated
  | directoryOutOfBounds
  | notAPointer (path : String)
  | described (text : String)
  deriving DecidableEq, Repr

def MetadataDefect.message : MetadataDefect → String
  | .missingSignature => "missing BSJB signature"
  | .versionTruncated => "version string truncated"
  | .streamOutOfBounds name => s!"stream {name} out of bounds"
  | .noTableStream => "no table stream"
  | .tableHeaderTruncated => "table stream header truncated"
  | .unsupportedTable id => s!"unsupported metadata table {Text.hex 2 id}"
  | .tableTruncated id => s!"metadata table {Text.hex 2 id} truncated"
  | .compressedLead octet => s!"invalid compressed integer lead byte {Text.hex 2 octet}"
  | .attributeProlog word => s!"bad custom attribute prolog {Text.hex 4 word}"
  | .readPastEnd offset size => s!"read past end of metadata at {Text.hex 1 offset} (size {size})"
  | .wrapper message => s!"metadata PE wrapper: {message}"
  | .noCliHeader => "PE image has no CLR header"
  | .cliHeaderTruncated => "CLI header truncated"
  | .directoryOutOfBounds => "metadata directory out of bounds"
  | .notAPointer path => s!"'{path}' is neither metadata nor a pointer file"
  | .described text => text

/-- A cause of failure. -/
inductive Fault
  /-- The operating system refused, in its own words. -/
  | system (reason : String)
  | metadataMissing (path : String)
  | binaryMissing (path : String)
  | dosSignature
  | imageSignature
  | optionalHeaderMagic (magic : UInt16)
  | image (defect : ImageDefect)
  | metadata (defect : MetadataDefect)
  | outOfBounds (offset size : Nat)
  deriving DecidableEq, Repr

namespace Fault

def message : Fault → String
  | system reason => s!"I/O error: {reason}"
  | metadataMissing path => s!"metadata file not found: {path}"
  | binaryMissing path => s!"binary file not found: {path}"
  | dosSignature => "invalid DOS signature (expected 'MZ')"
  | imageSignature => "invalid PE signature (expected 'PE\\0\\0')"
  | optionalHeaderMagic magic => s!"invalid optional header magic: {Text.hex 4 magic.toNat}"
  | image defect => s!"malformed PE image: {defect.message}"
  | metadata defect => s!"malformed metadata: {defect.message}"
  | outOfBounds offset size => s!"offset {Text.hex 1 offset} out of bounds (size: {size})"

def exitCode : Fault → Nat
  | metadataMissing _ => 3
  | binaryMissing _ => 4
  | dosSignature | imageSignature | optionalHeaderMagic _ | image _ => 5
  | metadata _ => 6
  | system _ | outOfBounds .. => 1

/-- Whether the fault says that a file is no well-formed PE image. -/
def isImageFault (f : Fault) : Bool :=
  f.exitCode == 5

theorem exitCode_ne_zero (f : Fault) : f.exitCode ≠ 0 := by
  cases f <;> simp [exitCode]

end Fault

/-- The first cause of a failure. The system can also refuse outside the steps that have a `Fault`
for it. -/
inductive Cause
  | fault (fault : Fault)
  | other (reason : String)
  deriving DecidableEq, Repr

/-- A failure: its cause, and what was being done, the outermost step first. -/
structure Failure where
  steps : List String
  cause : Cause
  deriving DecidableEq, Repr

namespace Failure

def ofFault (f : Fault) : Failure :=
  ⟨[], .fault f⟩

/-- The failure seen from the step around it. -/
def within (step : String) (f : Failure) : Failure :=
  { f with steps := step :: f.steps }

/-- The wordings of a cause. A refusal by the system is told twice, as part of the fault and as the
reason behind it. -/
def causeMessages : Cause → List String
  | .fault (.system reason) => [Fault.message (.system reason), reason]
  | .fault f => [f.message]
  | .other reason => [reason]

/-- The steps and the wordings of the cause, outermost first. -/
def message (f : Failure) : String :=
  ": ".intercalate (f.steps ++ causeMessages f.cause)

def exitCode (f : Failure) : Nat :=
  match f.cause with
  | .fault fault => fault.exitCode
  | .other _ => 1

@[simp] theorem exitCode_ofFault (f : Fault) : (ofFault f).exitCode = f.exitCode := rfl

@[simp] theorem exitCode_within (step : String) (f : Failure) :
    (f.within step).exitCode = f.exitCode := rfl

end Failure

end WinFloor

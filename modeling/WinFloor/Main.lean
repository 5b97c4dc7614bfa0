import WinFloor.Program

/-!
The command line tool.
-/
namespace WinFloor.Main

open Files

/-- The wording of a refusal by the system. -/
def refusal : IO.Error → String
  | .noFileOrDirectory .. => Refusal.notFound
  | .permissionDenied .. => Refusal.permissionDenied
  | e => toString e

/-- What a path of the file system leads to. -/
def look (path : String) : IO Entry := do
  let place : IO.FS.DirEntry := ⟨".", path⟩
  match ← place.path.metadata.toBaseIO with
  | .error e => return .missing (refusal e)
  | .ok found =>
    match found.type with
    | .dir => return .directory
    | .file =>
      match ← (IO.FS.readBinFile path).toBaseIO with
      | .ok content => return .file content.data
      | .error e => return .unreadable (refusal e)
    | _ => return .missing Refusal.notFound

/-- Reads a stream to its end, behind the octets read already. -/
partial def readOn (stream : IO.FS.Stream) (octets : Octets) : IO Octets := do
  let more ← stream.read 65536
  if more.isEmpty then return octets else readOn stream (octets ++ more.data)

def standardInput : IO Octets := do
  readOn (← IO.getStdin) #[]

def version : String := "minbuild 0.1.0"

def help : String := Text.unlines
  ["Determine the minimum Windows build a PE binary requires",
   "",
   "Usage: minbuild [OPTIONS] <COMMAND>",
   "",
   "Commands:",
   "  analyze  Analyze binaries; without --binary, look up module,symbol lines from stdin",
   "  lookup   Look up module,symbol lines and print module,symbol,minBuild,reason",
   "  help     Print this message",
   "",
   "Options of both commands:",
   "      --metadata <PATH>  Compatibility metadata, or a file that points at it",
   "                         [env: MINBUILD_METADATA]",
   "Options of analyze:",
   "      --binary <PATH>    Binary to analyze; repeat for several",
   "      --json             Shorthand for --format json",
   "      --with-header      Also derive a minimum build from the header versions",
   "Options of lookup:",
   "      --input <PATH>     Input file; stdin when omitted",
   "Options:",
   "  -v, --verbose          Enable verbose output",
   "  -f, --format <FORMAT>  Output format: pretty, text, json or csv [default: pretty]",
   "      --no-color         Suppress colored output",
   "  -h, --help             Print help",
   "  -V, --version          Print version"]

/-- What is told about a command line that is not taken, apart from how the tool is used. -/
def complaint : Command.Usage → String
  | .help | .helpForWantOfArguments | .version => ""
  | .invalidValue => "error: an option has no value or an invalid one"
  | .unknownArgument => "error: unexpected argument"
  | .invalidCommand => "error: unrecognized subcommand"
  | .conflict => "error: an option cannot be used multiple times"
  | .tooManyValues => "error: an option takes no value"
  | .missingRequired => "error: the metadata is not given"
  | .missingCommand => "error: a subcommand is required"

/-- Tells why a command line is not taken. -/
def tell (u : Command.Usage) : IO Unit :=
  match u with
  | .help => IO.print help
  | .version => IO.println version
  | .helpForWantOfArguments => IO.eprint help
  | u => do
    IO.eprintln (complaint u)
    IO.eprint help

/-- Prints what a run gives, and answers its exit code. -/
def finish (o : Program.Outcome) : IO UInt32 := do
  IO.print o.output
  for w in o.warnings do
    IO.eprintln s!"warning: {w.trouble.message} (line {w.line})"
  IO.eprint o.errors
  match o.ending with
  | .ok code => return UInt32.ofNat code
  | .error f =>
    IO.eprintln (Program.errorLine f)
    return UInt32.ofNat f.exitCode

end WinFloor.Main

def main (words : List String) : IO UInt32 := do
  let environment ← IO.getEnv WinFloor.Command.metadataVariable
  match WinFloor.Command.Invocation.read environment words with
  | .error u =>
    WinFloor.Main.tell u
    return UInt32.ofNat u.exitCode
  | .ok invocation =>
    let onTerminal ← (← IO.getStdout).isTty
    let run :=
      WinFloor.Program.run WinFloor.Main.look WinFloor.Main.standardInput onTerminal invocation
    WinFloor.Main.finish (← run)

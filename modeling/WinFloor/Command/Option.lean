import WinFloor.Report.Style

/-!
The command line: its commands, the options of each, and why a command line is not taken.
-/
namespace WinFloor.Command

/-- Where options stand: before a command, or behind it. -/
inductive Level
  | top
  | analyze
  | lookup
  deriving DecidableEq, Repr

namespace Level

def ofCommand? (word : String) : Option Level :=
  if word = "analyze" then some analyze
  else if word = "lookup" then some lookup
  else none

def helpCommand : String := "help"

end Level

inductive Opt
  | help
  | version
  | verbose
  | format
  | noColor
  | metadata
  | binary
  | json
  | withHeader
  | input
  deriving DecidableEq, Repr

namespace Opt

def long : Opt → String
  | help => "help"
  | version => "version"
  | verbose => "verbose"
  | format => "format"
  | noColor => "no-color"
  | metadata => "metadata"
  | binary => "binary"
  | json => "json"
  | withHeader => "with-header"
  | input => "input"

def short? : Opt → Option Char
  | help => some 'h'
  | version => some 'V'
  | verbose => some 'v'
  | format => some 'f'
  | _ => none

def takesValue : Opt → Bool
  | format | metadata | binary | input => true
  | _ => false

/-- Whether the option may be given more than once at one level. -/
def repeats : Opt → Bool
  | binary => true
  | _ => false

/-- Formats are known by name, and a path is not empty. -/
def accepts (o : Opt) (value : String) : Bool :=
  match o with
  | format => (Report.Style.ofName? value).isSome
  | _ => value ≠ ""

end Opt

/-- The options of each level. Those before a command can be given behind it too. -/
def Level.options : Level → List Opt
  | .top => [.help, .version, .verbose, .format, .noColor]
  | .analyze =>
    [.help, .verbose, .format, .noColor, .metadata, .binary, .json, .withHeader]
  | .lookup => [.help, .verbose, .format, .noColor, .metadata, .input]

def Level.long? (l : Level) (name : String) : Option Opt :=
  l.options.find? (·.long = name)

def Level.short? (l : Level) (letter : Char) : Option Opt :=
  l.options.find? (·.short? = some letter)

/-- Why a command line is not taken: it asks for help or the version, or it cannot be understood. -/
inductive Usage
  | help
  | helpForWantOfArguments
  | version
  | invalidValue
  | unknownArgument
  | invalidCommand
  | conflict
  | tooManyValues
  | missingRequired
  | missingCommand
  deriving DecidableEq, Repr

def Usage.exitCode : Usage → Nat
  | help | version => 0
  | _ => 2

end WinFloor.Command

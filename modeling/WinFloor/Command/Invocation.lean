import WinFloor.Command.Reading

/-!
What a command line asks for.
-/
namespace WinFloor.Command

inductive Task
  | analyze (metadata : String) (binaries : List String) (json withHeader : Bool)
  | lookup (metadata : String) (input : Option String)
  deriving DecidableEq, Repr

structure Invocation where
  task : Task
  verbose : Bool
  style : Report.Style
  noColor : Bool
  deriving DecidableEq, Repr

/-- The variable that names the metadata where the command line does not. -/
def metadataVariable : String := "MINBUILD_METADATA"

/-- The metadata for a command. The environment counts where the command line is silent. -/
def metadataPath (g : Given) (environment : Option String) : Except Usage String :=
  match g.value? .metadata, environment with
  | some path, _ => .ok path
  | none, some path => if Opt.accepts .metadata path then .ok path else .error .invalidValue
  | none, none => .error .missingRequired

/-- Reads the words behind a command. -/
def readTask (l : Level) (environment : Option String) (words : List String) :
    Except Usage (Task × Given) := do
  let reading ← read l .none words
  let g ← reading.given.settle
  let metadata ← metadataPath g environment
  match l with
  | .lookup => return (.lookup metadata (g.value? .input), g)
  | _ => return (.analyze metadata (g.values .binary) (g.has .json) (g.has .withHeader), g)

/-- The style given behind the command, else before it, else the pretty one. -/
def styleOf (outer inner : Given) : Report.Style :=
  (((inner.value? .format).or (outer.value? .format)).bind Report.Style.ofName?).getD .pretty

/-- Reads a command line. The command is read to its end before the option that comes last in front
of it counts. -/
def Invocation.read (environment : Option String) (words : List String) :
    Except Usage Invocation := do
  let reading ← Command.read .top .none words
  match reading.command with
  | none =>
    let g ← reading.given.settle
    throw (if g.options.isEmpty then .helpForWantOfArguments else .missingCommand)
  | some (level, words) =>
    let (task, inner) ← readTask level environment words
    let outer ← reading.given.settle
    return { task
             verbose := outer.has .verbose || inner.has .verbose
             style := styleOf outer inner
             noColor := outer.has .noColor || inner.has .noColor }

end WinFloor.Command

import WinFloor.Command.Option

/-!
Reading the words of a command line. An option that takes a value waits for it; what an option is
given for counts only when the next option comes or the words end.
-/
namespace WinFloor.Command

/-- The options given so far with their values, those without a value with an empty one, and the
option whose value is awaited or has come last. -/
structure Given where
  options : List (Opt × String)
  waiting : Option (Opt × Option String)
  deriving DecidableEq, Repr

namespace Given

def none : Given := ⟨[], .none⟩

def has (g : Given) (o : Opt) : Bool := g.options.any (·.1 = o)

def values (g : Given) (o : Opt) : List String :=
  g.options.filterMap fun (p, value) => if p = o then some value else .none

def value? (g : Given) (o : Opt) : Option String := (g.values o).head?

/-- Whether the next word is the value of an option. -/
def awaitsValue (g : Given) : Bool :=
  match g.waiting with
  | some (_, .none) => true
  | _ => false

/-- Takes an option with its value. -/
def accept (g : Given) (o : Opt) (value : String) : Except Usage Given :=
  if !o.repeats && g.has o then .error .conflict
  else if o.accepts value then .ok { g with options := g.options ++ [(o, value)] }
  else .error .invalidValue

/-- Takes the option that has waited. -/
def settle (g : Given) : Except Usage Given :=
  match g.waiting with
  | .none => .ok g
  | some (_, .none) => .error .invalidValue
  | some (o, some value) => { g with waiting := .none }.accept o value

def acceptFlag (g : Given) (o : Opt) : Except Usage Given := do
  let g ← g.settle
  match o with
  | .help => throw .help
  | .version => throw .version
  | o => if g.has o then throw .conflict else return { g with options := g.options ++ [(o, "")] }

/-- Takes an option that came with its value, or lets it wait for one. -/
def acceptValue (g : Given) (o : Opt) (value : Option String) : Except Usage Given := do
  let g ← g.settle
  match value with
  | some value => g.accept o value
  | .none => return { g with waiting := some (o, .none) }

end Given

/-- A word behind two hyphens: a name, and what follows an equals sign. -/
def splitLong (cs : List Char) : String × Option String :=
  match cs.dropWhile (· ≠ '=') with
  | [] => (String.ofList cs, none)
  | _ :: value => (String.ofList (cs.takeWhile (· ≠ '=')), some (String.ofList value))

def readLong (l : Level) (g : Given) (cs : List Char) : Except Usage Given :=
  let (name, value) := splitLong cs
  match l.long? name with
  | none => .error .unknownArgument
  | some o =>
    if o.takesValue then g.acceptValue o value
    else if value.isSome then .error .tooManyValues
    else g.acceptFlag o

/-- Letters behind one hyphen. What follows an option that takes a value is its value, with or
without an equals sign. -/
def readShort (l : Level) (g : Given) : List Char → Except Usage Given
  | [] => .ok g
  | c :: rest =>
    match l.short? c with
    | none => .error .unknownArgument
    | some o =>
      if o.takesValue then
        g.acceptValue o <|
          match rest with
          | [] => none
          | '=' :: value => some (String.ofList value)
          | value => some (String.ofList value)
      else
        match g.acceptFlag o with
        | .ok g => readShort l g rest
        | .error u => .error u

/-- A word that is neither an option nor a value. Commands are such words, at the top. -/
def stray (l : Level) : Usage :=
  match l with
  | .top => .invalidCommand
  | _ => .unknownArgument

/-- The words behind two lone hyphens, none of which has a meaning. -/
def afterHyphens (l : Level) : List String → Except Usage Unit
  | [] => .ok ()
  | word :: _ =>
    match l, Level.ofCommand? word with
    | .top, none => .error (if word = Level.helpCommand then .unknownArgument else .invalidCommand)
    | _, _ => .error .unknownArgument

/-- What help is asked for: commands, of which none has commands of its own. -/
def helpFor : List String → Usage
  | [] => .help
  | [word] =>
    if (Level.ofCommand? word).isSome || word = Level.helpCommand then .help else .invalidCommand
  | _ => .invalidCommand

/-- The options at a level, and the command with the words behind it if one comes. -/
structure Reading where
  given : Given
  command : Option (Level × List String)

/-- Reads the words at a level. -/
def read (l : Level) (g : Given) : List String → Except Usage Reading
  | [] => .ok ⟨g, none⟩
  | word :: words =>
    let command := if g.awaitsValue || l ≠ .top then none else Level.ofCommand? word
    match command with
    | some command => .ok ⟨g, some (command, words)⟩
    | none =>
      if !g.awaitsValue && l = .top && word = Level.helpCommand then .error (helpFor words)
      else
        match word.toList with
        | ['-', '-'] => (afterHyphens l words).map fun _ => ⟨g, none⟩
        | '-' :: '-' :: cs => (readLong l g cs).bind fun g => read l g words
        | '-' :: c :: cs => (readShort l g (c :: cs)).bind fun g => read l g words
        | _ =>
          match g.waiting with
          | some (o, none) => read l { g with waiting := some (o, some word) } words
          | _ => .error (stray l)

end WinFloor.Command

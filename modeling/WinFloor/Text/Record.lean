import WinFloor.Text.Blank

/-!
Comma-separated records. A field with a comma, a quote or a line break is written in quotes, each
quote inside it twice. Reading is lenient: blanks before an opening quote are dropped, and text
behind a closing quote belongs to the field.
-/
namespace WinFloor.Text.Record

def needsQuotes (c : Char) : Bool :=
  c == ',' || c == '"' || c == '\n' || c == '\r'

def doubled (cs : List Char) : List Char :=
  cs.flatMap fun c => if c == '"' then ['"', '"'] else [c]

theorem doubled_cons (c : Char) (cs : List Char) :
    doubled (c :: cs) = (if c == '"' then ['"', '"'] else [c]) ++ doubled cs :=
  List.flatMap_cons

/-- A field as it is written. -/
def field (text : String) : String :=
  if text.toList.any needsQuotes then String.ofList ('"' :: doubled text.toList ++ ['"']) else text

/-- A record as it is written, without a line end. -/
def line (fields : List String) : String :=
  ",".intercalate (fields.map field)

theorem line_singleton (text : String) : line [text] = field text :=
  String.intercalate_singleton

theorem line_cons_cons (text next : String) (rest : List String) :
    line (text :: next :: rest) = field text ++ "," ++ line (next :: rest) :=
  String.intercalate_cons_cons

/-- Where the reader stands: outside quotes, inside them, or behind a quote that closes them unless
another follows. -/
inductive Mode
  | plain
  | quoted
  | closing
  deriving DecidableEq

/-- The reader between two characters: the fields read and the characters of the field begun, both
last first. -/
structure Reader where
  fields : List (List Char)
  current : List Char
  mode : Mode

def Reader.start : Reader := ⟨[], [], .plain⟩

def Reader.push (r : Reader) (c : Char) : Reader :=
  { r with current := c :: r.current }

def Reader.endField (r : Reader) : Reader :=
  { r with fields := r.current.reverse :: r.fields, current := [] }

/-- A character outside quotes. A quote opens the field only where nothing but blanks came
before. -/
def Reader.plain (r : Reader) (c : Char) : Reader :=
  if c == '"' && r.current.all isBlank then { r with current := [], mode := .quoted }
  else if c == ',' then r.endField
  else r.push c

def Reader.step (r : Reader) (c : Char) : Reader :=
  match r.mode with
  | .plain => r.plain c
  | .quoted => if c == '"' then { r with mode := .closing } else r.push c
  | .closing =>
    if c == '"' then { r.push c with mode := .quoted } else { r with mode := .plain }.plain c

/-- The fields of a line, unless a quote is left open. -/
def split? (text : String) : Option (List String) :=
  let r := text.toList.foldl Reader.step Reader.start
  if r.mode = .quoted then none else some (r.endField.fields.reverse.map String.ofList)

end WinFloor.Text.Record

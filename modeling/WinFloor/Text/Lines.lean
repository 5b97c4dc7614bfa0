import WinFloor.Text.Blank

/-!
Lines of text.
-/
namespace WinFloor.Text

/-- The lines, each with a line feed behind it. -/
def unlines (lines : List String) : String :=
  lines.foldl (fun text line => text ++ line ++ "\n") ""

/-- What stands between the line feeds of a text. -/
def lines (text : String) : List (List Char) :=
  text.toList.splitOn '\n'

/-- The first line that is not blank, trimmed. -/
def firstLine? (text : String) : Option String :=
  ((lines text).map trimmed).findSome? fun line =>
    if line.isEmpty then none else some (String.ofList line)

end WinFloor.Text

/-!
Paths of files: names of directories and of what is in them, with slashes between.
-/
namespace WinFloor.Files.Path

def separator : Char := '/'

/-- The reversed path of a directory without the slashes and dots at its end that add nothing. The
root keeps its slash. -/
def bare : List Char → List Char
  | [] => []
  | c :: rest =>
    if c = separator then
      match rest with
      | [] => [separator]
      | _ => bare rest
    else if c = '.' then
      match rest with
      | '/' :: _ => bare rest
      | _ => c :: rest
    else c :: rest

/-- The directory that a path of a file leads through, empty where it names none. -/
def parent (path : String) : String :=
  String.ofList (bare (path.toList.reverse.dropWhile (· ≠ separator))).reverse

def isAbsolute (path : String) : Bool :=
  path.toList.head? == some separator

/-- A path taken from a directory. -/
def join (directory path : String) : String :=
  if isAbsolute path || directory = "" then path
  else if directory.toList.getLast? == some separator then directory ++ path
  else directory ++ separator.toString ++ path

end WinFloor.Files.Path

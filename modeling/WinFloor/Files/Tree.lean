import WinFloor.Files.Entry
import WinFloor.Files.Path

/-!
A tree of files as a value, and following paths in it.
-/
namespace WinFloor.Files

inductive Node
  | file (content : Octets)
  | directory (entries : List (String × Node))

/-- The entries of a directory. -/
abbrev Entries := List (String × Node)

def maxNameSize : Nat := 255
def maxPathSize : Nat := 4095

/-- The names that a path goes through. Empty ones and dots lead nowhere else. -/
def Path.names (path : String) : List String :=
  (path.toList.splitOn separator).map String.ofList

namespace Entries

/-- Puts a node in the place of what had its name. -/
def replace (entries : Entries) (name : String) (node : Node) : Entries :=
  entries.filter (·.1 ≠ name) ++ [(name, node)]

/-- The entries of the directory of that name; none where there is no such directory. -/
def inside (entries : Entries) (name : String) : Entries :=
  match entries.lookup name with
  | some (.directory inner) => inner
  | _ => []

/-- Puts a node behind the names, with the directories that are missing on the way. -/
def put (entries : Entries) (node : Node) : (names : List String) → Entries
  | [] => entries
  | [name] =>
    match node with
    | .file _ => entries.replace name node
    | .directory _ => entries.replace name (.directory (entries.inside name))
  | name :: names => entries.replace name (.directory ((entries.inside name).put node names))

/-- Follows names from a directory, which the entries of the directories above it come behind. Above
them all there is an empty directory. -/
def follow : (trail : List Entries) → (names : List String) → Entry
  | _, [] => .directory
  | trail, name :: names =>
    if name = "" ∨ name = "." then follow trail names
    else if name = ".." then follow trail.tail names
    else
      match (trail.headD []).lookup name with
      | none =>
        .missing (if maxNameSize < name.utf8ByteSize then Refusal.nameTooLong else Refusal.notFound)
      | some (.directory inner) => follow (inner :: trail) names
      | some (.file content) =>
        match names with
        | [] => .file content
        | _ => .missing Refusal.notADirectory

end Entries

/-- A directory that relative paths start from. Nothing is known of what is outside it. -/
structure Tree where
  entries : Entries

namespace Tree

def empty : Tree := ⟨[]⟩

def put (t : Tree) (path : String) (node : Node) : Tree :=
  ⟨t.entries.put node ((Path.names path).filter fun name => name ≠ "" ∧ name ≠ ".")⟩

def look (t : Tree) (path : String) : Entry :=
  if path = "" then .missing Refusal.notFound
  else if path.toList.contains '\x00' then .missing Refusal.nameWithNul
  else if maxPathSize < path.utf8ByteSize then .missing Refusal.nameTooLong
  else Entries.follow (if Path.isAbsolute path then [] else [t.entries]) (Path.names path)

end Tree

end WinFloor.Files

import WinFloor.Octets

/-!
What a path leads to, and how the system words that it leads nowhere.
-/
namespace WinFloor.Files

namespace Refusal

def notFound : String := "No such file or directory (os error 2)"
def permissionDenied : String := "Permission denied (os error 13)"
def notADirectory : String := "Not a directory (os error 20)"
def isADirectory : String := "Is a directory (os error 21)"
def nameTooLong : String := "File name too long (os error 36)"
def nameWithNul : String := "file name contained an unexpected NUL byte"

end Refusal

inductive Entry
  /-- A regular file and what it holds. -/
  | file (content : Octets)
  /-- A regular file that cannot be read, and why. -/
  | unreadable (reason : String)
  | directory
  /-- Nothing that can be opened, and why. -/
  | missing (reason : String)

def Entry.isFile : Entry → Bool
  | file _ | unreadable _ => true
  | directory | missing _ => false

end WinFloor.Files

import WinFloor.ModuleName

/-!
API sets. Modules such as `api-ms-win-core-file-l1-1-0` stand for a family of functions that some
other module hosts; a table names the hosts that are likely for each family.
-/
namespace WinFloor.ApiSet

def aliasPrefixes : List (List Char) :=
  ["api-ms-win-".toList, "ext-ms-win-".toList]

/-- What stands behind `start`, if the text begins so. -/
def rest? (start cs : List Char) : Option (List Char) :=
  if start.isPrefixOf cs then some (cs.drop start.length) else none

/-- The family of a module, if its name is an alias. The name is one in the form for comparing. -/
def family? (moduleName : String) : Option (List Char) :=
  aliasPrefixes.findSome? (rest? · moduleName.toList)

def isAlias (moduleName : String) : Bool :=
  (family? (ModuleName.normalize moduleName)).isSome

/-- The hosts of a family. -/
structure Rule where
  family : String
  hosts : List String
  deriving DecidableEq, Repr

namespace Rule

/-- Rules are kept in lower case. -/
def of (family : String) (hosts : List String) : Rule :=
  ⟨Text.lowerAscii family, hosts.map Text.lowerAscii⟩

/-- A rule covers its family, and all that goes on behind a hyphen. -/
def covers (r : Rule) (family : List Char) : Bool :=
  match rest? r.family.toList family with
  | some [] => true
  | some (c :: _) => c == '-'
  | none => false

end Rule

/-- Rules in order. -/
structure HostTable where
  rules : List Rule
  deriving DecidableEq, Repr

namespace HostTable

def empty : HostTable := ⟨[]⟩

def withRule (t : HostTable) (family : String) (hosts : List String) : HostTable :=
  ⟨t.rules ++ [.of family hosts]⟩

def standard : HostTable :=
  empty
    |>.withRule "core" ["kernel32.dll", "kernelbase.dll"]
    |>.withRule "crt" ["ucrtbase.dll"]
    |>.withRule "security" ["advapi32.dll", "sechost.dll"]
    |>.withRule "service" ["advapi32.dll", "sechost.dll"]
    |>.withRule "eventing" ["advapi32.dll"]
    |>.withRule "shcore" ["shcore.dll"]
    |>.withRule "ntuser" ["user32.dll"]
    |>.withRule "gdi" ["gdi32.dll"]
    |>.withRule "shell" ["shell32.dll", "shlwapi.dll"]

/-- The first rule that covers a module. -/
def rule? (t : HostTable) (moduleName : String) : Option Rule := do
  let family ← family? (ModuleName.normalize moduleName)
  t.rules.find? (·.covers family)

/-- The hosts to try for a module; none if its name is no alias or no rule covers it. -/
def hosts (t : HostTable) (moduleName : String) : List String :=
  ((t.rule? moduleName).map Rule.hosts).getD []

end HostTable

end WinFloor.ApiSet

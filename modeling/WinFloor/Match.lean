import WinFloor.ApiSet
import WinFloor.Catalog

/-!
Matching a function that an image needs with the catalog. A module that the catalog does not know is
tried under the hosts of its API set.
-/
namespace WinFloor

/-- How a function was found. -/
inductive Match
  | direct (found : Declaration)
  | fallback (host : String) (found : Declaration)
  | miss
  deriving DecidableEq, Repr

namespace Match

def found? : Match → Option Declaration
  | direct d | fallback _ d => some d
  | miss => none

/-- The build that the function needs, zero if it was not found. -/
def build (m : Match) : Nat :=
  (m.found?.map Declaration.build).getD 0

def isFallback : Match → Bool
  | fallback .. => true
  | direct _ | miss => false

def unknownReason : String := "unknown"

/-- Why the build is needed: the function in the spelling of the image, the platform text, and the
host if one was needed. -/
def reason (m : Match) (moduleName symbol : String) : String :=
  match m with
  | miss => unknownReason
  | direct d => named d
  | fallback host d => s!"{named d} via api-set fallback {host}"
where
  named (d : Declaration) : String :=
    let platform := d.requirement.platform
    if platform = "" then s!"{moduleName}!{symbol}" else s!"{moduleName}!{symbol} ({platform})"

end Match

/-- What functions are matched with. -/
structure Matcher where
  catalog : Catalog
  hosts : ApiSet.HostTable

/-- Looks a function up, then under each host of its module in order. -/
def Matcher.resolve (m : Matcher) (moduleName symbol : String) : Match :=
  let moduleName := ModuleName.normalize moduleName
  match m.catalog.lookup moduleName symbol with
  | some d => .direct d
  | none =>
    ((m.hosts.hosts moduleName).findSome? fun host =>
      (m.catalog.lookup host symbol).map (.fallback host)).getD .miss

end WinFloor

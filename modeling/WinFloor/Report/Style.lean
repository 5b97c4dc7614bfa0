/-!
The styles of a report.
-/
namespace WinFloor.Report

inductive Style
  | pretty
  | text
  | json
  | csv
  deriving DecidableEq, Repr

namespace Style

def all : List Style := [pretty, text, json, csv]

def name : Style → String
  | pretty => "pretty"
  | text => "text"
  | json => "json"
  | csv => "csv"

def ofName? (name : String) : Option Style := all.find? (·.name = name)

theorem ofName?_name (s : Style) : ofName? s.name = some s := by
  cases s <;> decide

end Style

end WinFloor.Report

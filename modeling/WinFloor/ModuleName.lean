import WinFloor.Text.Blank
import WinFloor.Text.Lowercase

/-!
Names of modules. Case, blanks around a name and the extension `.dll` make no difference to what a
name means; here is the form they are compared in.
-/
namespace WinFloor.ModuleName

/-- Without blanks around it, and in lower case. -/
def normalize (name : String) : String :=
  Text.lowerAscii (Text.trim name)

def extension : List Char := ['.', 'd', 'l', 'l']

/-- What stands before `ending`, if the text ends so. -/
def stem? (ending cs : List Char) : Option (List Char) :=
  if ending.isSuffixOf cs then some (cs.take (cs.length - ending.length)) else none

/-- With the extension if it has none, and without it if it has one. -/
def toggleExtension (name : String) : String :=
  match stem? extension name.toList with
  | some stem => String.ofList stem
  | none => String.ofList (name.toList ++ extension)

/-- The two forms of a name: as it is, and with the extension toggled. -/
def variants (name : String) : List String :=
  let name := normalize name
  [name, toggleExtension name]

theorem stem?_append (ending cs : List Char) : stem? ending (cs ++ ending) = some cs := by
  simp [stem?]

theorem eq_append_of_stem? {ending cs stem : List Char} (h : stem? ending cs = some stem) :
    cs = stem ++ ending := by
  simp only [stem?, Option.ite_none_right_eq_some, Option.some.injEq,
    List.isSuffixOf_iff_suffix] at h
  obtain ⟨⟨front, rfl⟩, rfl⟩ := h
  simp

end WinFloor.ModuleName

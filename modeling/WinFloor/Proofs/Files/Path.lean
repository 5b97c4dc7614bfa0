import Mathlib.Data.List.DropRight
import WinFloor.Files.Tree

/-!
Paths taken from the directory of a file. The steps of a path are its names that are neither empty
nor a dot. A relative path that is taken from the directory of a file goes the steps to the file but
the last one, and then its own (`isBeside_join`).
-/
namespace WinFloor.Files

namespace Path

def isStep (name : String) : Bool := name ≠ "" ∧ name ≠ "."

/-- The names of a path that lead from one directory to another. -/
def steps (path : String) : List String := (names path).filter isStep

/-- The last name of the path is a step, as it is where the path leads to a file. -/
def EndsInStep (path : String) : Prop :=
  ∃ name, (names path).getLast? = some name ∧ isStep name = true

def namesOf (cs : List Char) : List String := (cs.splitOn separator).map String.ofList

def stepsOf (cs : List Char) : List String := (namesOf cs).filter isStep

theorem steps_eq (path : String) : steps path = stepsOf path.toList := rfl

theorem stepsOf_nil : stepsOf [] = [] := by decide

theorem namesOf_separator (cs ds : List Char) :
    namesOf (cs ++ separator :: ds) = namesOf cs ++ namesOf ds := by
  rw [namesOf, List.splitOn_append_cons_self, List.map_append]
  rfl

theorem stepsOf_separator (cs ds : List Char) :
    stepsOf (cs ++ separator :: ds) = stepsOf cs ++ stepsOf ds := by
  rw [stepsOf, namesOf_separator, List.filter_append]
  rfl

/-- A slash at the end adds no step. -/
theorem stepsOf_append_separator (cs : List Char) : stepsOf (cs ++ [separator]) = stepsOf cs := by
  rw [stepsOf_separator, stepsOf_nil, List.append_nil]

/-! ## The directory of a file -/

theorem bare_ne_nil {cs : List Char} (filled : cs ≠ []) : bare cs ≠ [] := by
  fun_induction bare cs with
  | case1 => exact absurd rfl filled
  | case2 => exact List.cons_ne_nil _ _
  | case3 rest more ih => exact ih more
  | case4 rest _ ih => exact ih (List.cons_ne_nil _ _)
  | case5 => exact List.cons_ne_nil _ _
  | case6 => exact List.cons_ne_nil _ _

theorem bare_suffix (cs : List Char) : bare cs <:+ cs := by
  fun_induction bare cs with
  | case1 => exact List.suffix_refl _
  | case2 => exact List.suffix_refl _
  | case3 rest more ih => exact ih.trans (List.suffix_cons _ _)
  | case4 rest _ ih => exact ih.trans (List.suffix_cons _ _)
  | case5 => exact List.suffix_refl _
  | case6 => exact List.suffix_refl _

/-- What is left off the end of a directory adds no step. -/
theorem stepsOf_bare (cs : List Char) : stepsOf (bare cs).reverse = stepsOf cs.reverse := by
  fun_induction bare cs with
  | case1 => rfl
  | case2 => rfl
  | case3 rest more ih => rw [ih, List.reverse_cons, stepsOf_append_separator]
  | case4 rest _ ih =>
    have slash : ('/' :: rest).reverse = rest.reverse ++ [separator] := List.reverse_cons
    have dotted : ('.' :: '/' :: rest).reverse = rest.reverse ++ separator :: ['.'] := by
      simp [separator]
    have dot : stepsOf ['.'] = [] := by decide
    rw [ih, slash, dotted, stepsOf_append_separator, stepsOf_separator, dot, List.append_nil]
  | case5 => rfl
  | case6 => rfl

/-- A path of a file is its name, behind what leads to its directory. -/
theorem exists_parts (path : String) :
    ∃ front name, path.toList = front ++ name ∧ separator ∉ name ∧
      (front = [] ∨ ∃ rest, front = rest ++ [separator]) ∧
        parent path = String.ofList (bare front.reverse).reverse := by
  refine ⟨path.toList.rdropWhile (· ≠ separator), path.toList.rtakeWhile (· ≠ separator),
    List.rdropWhile_append_rtakeWhile.symm, fun among => ?_, ?_, ?_⟩
  · simpa using List.mem_takeWhile_imp (List.mem_reverse.mp among)
  · by_cases empty : path.toList.rdropWhile (· ≠ separator) = []
    · exact .inl empty
    · have last := List.rdropWhile_last_not _ _ empty
      rw [decide_eq_true_eq, Decidable.not_not] at last
      exact .inr ⟨_, last ▸ (List.dropLast_append_getLast empty).symm⟩
  · rw [List.rdropWhile, List.reverse_reverse]
    rfl

theorem steps_parent {path : String} (ends : EndsInStep path) :
    steps (parent path) = (steps path).dropLast := by
  obtain ⟨front, name, whole, single, shape, directory⟩ := exists_parts path
  obtain ⟨final, last, isFinal⟩ := ends
  have only : namesOf name = [String.ofList name] := by
    rw [namesOf, List.splitOn_eq_singleton single]
    rfl
  have own (step : isStep (String.ofList name) = true) : stepsOf name = [String.ofList name] := by
    rw [stepsOf, only, List.filter_cons_of_pos step, List.filter_nil]
  rw [names, ← namesOf, whole] at last
  rw [directory, steps_eq, steps_eq, String.toList_ofList, stepsOf_bare, List.reverse_reverse,
    whole]
  rcases shape with rfl | ⟨rest, rfl⟩
  · rw [List.nil_append, only] at last
    cases last
    rw [List.nil_append, own isFinal]
    rfl
  · rw [List.append_assoc, List.singleton_append, namesOf_separator, only,
      List.getLast?_concat] at last
    cases last
    rw [stepsOf_append_separator, List.append_assoc, List.singleton_append, stepsOf_separator,
      own isFinal, List.dropLast_concat]

theorem isAbsolute_parent (path : String) : isAbsolute (parent path) = isAbsolute path := by
  obtain ⟨front, name, whole, single, shape, directory⟩ := exists_parts path
  rw [directory, isAbsolute, isAbsolute, String.toList_ofList, whole, List.head?_reverse]
  rcases shape with rfl | ⟨rest, rfl⟩
  · cases name with
    | nil => rfl
    | cons c name =>
      have first : c ≠ separator := fun same => single (same ▸ List.mem_cons_self)
      simp [bare, first]
  · have ended : rest ++ [separator] ≠ [] := List.concat_ne_nil _ _
    have filled : bare (rest ++ [separator]).reverse ≠ [] :=
      bare_ne_nil fun empty => ended (List.reverse_eq_nil_iff.mp empty)
    obtain ⟨dropped, same⟩ := bare_suffix (rest ++ [separator]).reverse
    have last := congrArg List.getLast? same
    rw [List.getLast?_append_of_ne_nil _ filled, List.getLast?_reverse] at last
    rw [last, List.head?_append_of_ne_nil _ ended]

/-! ## Paths taken from a directory -/

theorem join_absolute {directory path : String} (absolute : isAbsolute path = true) :
    join directory path = path := by
  simp [join, absolute]

theorem join_relative {directory path : String} (relative : isAbsolute path = false) :
    isAbsolute (join directory path) = isAbsolute directory ∧
      steps (join directory path) = steps directory ++ steps path := by
  rw [join, relative, Bool.false_or]
  split
  next empty =>
    obtain rfl : directory = "" := by simpa using empty
    exact ⟨relative, rfl⟩
  next named =>
    have filled : directory.toList ≠ [] := by simpa using named
    split
    next slash =>
      obtain ⟨rest, ended⟩ := List.getLast?_eq_some_iff.mp (beq_iff_eq.mp slash)
      constructor
      · rw [isAbsolute, isAbsolute, String.toList_append, List.head?_append_of_ne_nil _ filled]
      · rw [steps_eq, steps_eq, steps_eq, String.toList_append, ended, List.append_assoc,
          List.singleton_append, stepsOf_separator, stepsOf_append_separator]
    next =>
      have written : (directory ++ separator.toString ++ path).toList =
          directory.toList ++ separator :: path.toList := by
        rw [String.toList_append, String.toList_append, List.append_assoc]
        rfl
      constructor
      · rw [isAbsolute, isAbsolute, written, List.head?_append_of_ne_nil _ filled]
      · rw [steps_eq, steps_eq, steps_eq, written, stepsOf_separator]

/-- The path is `target` as the directory of the file at `path` sees it: the same if that is
absolute, and else the way to the directory and then on. -/
structure IsBeside (path target found : String) : Prop where
  absolute : isAbsolute target = true → found = target
  relative : isAbsolute target = false → EndsInStep path →
    isAbsolute found = isAbsolute path ∧ steps found = (steps path).dropLast ++ steps target

theorem isBeside_join (path target : String) :
    IsBeside path target (join (parent path) target) := by
  refine ⟨join_absolute, fun relative ends => ?_⟩
  obtain ⟨absolute, taken⟩ := @join_relative (parent path) target relative
  exact ⟨absolute.trans (isAbsolute_parent path), steps_parent ends ▸ taken⟩

end Path

/-! ## Files of a tree -/

/-- In a tree every file can be read. -/
theorem Entries.follow_ne_unreadable (trail : List Entries) (names : List String)
    (reason : String) : Entries.follow trail names ≠ .unreadable reason := by
  fun_induction Entries.follow trail names with
  | case1 => simp
  | case2 _ _ _ _ ih => exact ih
  | case3 _ _ _ ih => exact ih
  | case4 => simp
  | case5 _ _ _ _ _ _ _ ih => exact ih
  | case6 => simp
  | case7 => simp

theorem Tree.look_ne_unreadable (t : Tree) (path reason : String) :
    t.look path ≠ .unreadable reason := by
  unfold Tree.look
  split
  · simp
  split
  · simp
  split
  · simp
  · exact Entries.follow_ne_unreadable _ _ reason

theorem Entries.endsInStep_of_follow {trail : List Entries} {names : List String}
    {content : Octets} (leads : Entries.follow trail names = .file content) :
    ∃ name, names.getLast? = some name ∧ Path.isStep name = true := by
  have later {first : String} {names : List String}
      (ends : ∃ name, names.getLast? = some name ∧ Path.isStep name = true) :
      ∃ name, (first :: names).getLast? = some name ∧ Path.isStep name = true := by
    obtain ⟨name, last, step⟩ := ends
    refine ⟨name, ?_, step⟩
    rw [List.getLast?_cons, last]
    rfl
  fun_induction Entries.follow trail names with
  | case1 => cases leads
  | case2 trail name names _ ih => exact later (ih leads)
  | case3 trail names _ ih => exact later (ih leads)
  | case4 => cases leads
  | case5 trail name names _ _ inner _ ih => exact later (ih leads)
  | case6 trail name step => exact ⟨name, rfl, by simpa [Path.isStep] using step⟩
  | case7 => cases leads

/-- Only a path that ends in a step leads to a file of a tree. -/
theorem Tree.endsInStep_of_look {t : Tree} {path : String} {content : Octets}
    (leads : t.look path = .file content) : Path.EndsInStep path := by
  unfold Tree.look at leads
  split at leads
  next => cases leads
  split at leads
  next => cases leads
  split at leads
  next => cases leads
  exact Entries.endsInStep_of_follow leads

end WinFloor.Files

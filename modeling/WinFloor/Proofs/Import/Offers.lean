import WinFloor.Proofs.Import.SymbolList

/-!
Lists of symbols, whatever was done to them. A list is what collecting all that it was offered
gives (`run_eq_ofList`), however the offers were made: of the symbols with one identity
(`Symbol.key_eq_identity`) it has the first, in the order of the offers
(`firsts_eq_firstOccurrences`). The keys kept beside the symbols are theirs (`Consistent`), so that a
symbol is taken for new exactly if none with its key is listed.
-/
namespace WinFloor.Import

/-- What makes two symbols the same one: the module, blanks around it and case set aside, and the
name as it is shown, case set aside. A number is shown behind `#`. -/
def Symbol.identity (s : Symbol) : String × String :=
  (Text.lowerAscii (Text.trim s.moduleName),
   Text.lowerAscii
    (match s.name with
     | .named text => text
     | .ordinal number => "#" ++ toString number.toNat))

theorem Symbol.key_eq_identity : Symbol.key = Symbol.identity := by
  funext s
  obtain ⟨moduleName, name, source⟩ := s
  cases name <;> rfl

/-- The symbols at places where an identity occurs that occurs at no place before. -/
def firstOccurrences (symbols : List Symbol) : List Symbol :=
  (symbols.zipIdx.filter fun (s, place) =>
    s.identity ∉ (symbols.take place).map Symbol.identity).map Prod.fst

theorem firstOccurrences_concat (symbols : List Symbol) (last : Symbol) :
    firstOccurrences (symbols ++ [last]) =
      firstOccurrences symbols ++
        if last.identity ∈ symbols.map Symbol.identity then [] else [last] := by
  have before : ∀ entry ∈ symbols.zipIdx,
      decide (entry.1.identity ∉ ((symbols ++ [last]).take entry.2).map Symbol.identity) =
        decide (entry.1.identity ∉ (symbols.take entry.2).map Symbol.identity) := by
    intro entry listed
    -- The last symbol stands before none of the others.
    have inside := List.snd_lt_of_mem_zipIdx listed
    rw [List.take_append_of_le_length (by omega)]
  rw [firstOccurrences, List.zipIdx_append, List.filter_append, List.map_append,
    List.filter_congr before]
  congr 1
  split
  next known => simp [known]
  next new => simp [new]

theorem firsts_eq_firstOccurrences (symbols : List Symbol) :
    firsts symbols = firstOccurrences symbols := by
  induction symbols using List.reverseRecOn with
  | nil => rfl
  | append_singleton symbols last ih =>
    rw [firstOccurrences_concat, ← ih, ← Symbol.key_eq_identity]
    split
    next known => rw [firsts_concat_of_mem known, List.append_nil]
    next new => rw [firsts_concat_of_not_mem new]

namespace SymbolList

/-! ## Symbols and keys -/

/-- The keys kept are those of the symbols, and no two symbols have one key. -/
structure Consistent (l : SymbolList) : Prop where
  keys : ∀ key, key ∈ l.keys ↔ key ∈ l.toList.map Symbol.key
  distinct : (l.toList.map Symbol.key).Nodup

theorem consistent_empty : Consistent empty where
  keys key := by simp [empty, toList]
  distinct := List.nodup_nil

namespace Consistent

variable {l : SymbolList}

theorem holds_iff (h : l.Consistent) (s : Symbol) :
    l.holds s = true ↔ s.key ∈ l.toList.map Symbol.key := by
  rw [holds, Std.HashSet.contains_iff_mem, h.keys]

theorem pushIfNew_iff_key (h : l.Consistent) (s : Symbol) :
    (l.pushIfNew s).1 = true ↔ s.key ∉ l.toList.map Symbol.key := by
  rw [pushIfNew_eq, ← h.holds_iff, Bool.not_eq_true', Bool.not_eq_true]

theorem push (h : l.Consistent) (s : Symbol) : (l.push s).Consistent := by
  by_cases listed : l.holds s = true
  · rw [SymbolList.push, if_pos listed]
    exact h
  · have new : s.key ∉ l.toList.map Symbol.key := fun known => listed ((h.holds_iff s).mpr known)
    have grown : ((l.push s).toList).map Symbol.key = l.toList.map Symbol.key ++ [s.key] := by
      rw [toList_push, if_neg listed, List.map_append, List.map_singleton]
    constructor
    · intro key
      rw [grown, SymbolList.push, if_neg listed, Std.HashSet.mem_insert, h.keys, beq_iff_eq,
        List.mem_append, List.mem_singleton, or_comm, eq_comm]
    · rw [grown, List.nodup_append]
      refine ⟨h.distinct, List.pairwise_singleton .., ?_⟩
      rintro key listed _ last rfl
      exact new (List.mem_singleton.mp last ▸ listed)

theorem append (h : l.Consistent) (symbols : List Symbol) : (l.append symbols).Consistent := by
  induction symbols generalizing l with
  | nil => exact h
  | cons s symbols ih => exact ih (h.push s)

end Consistent

/-- A symbol is called new if it comes to stand at the end, and otherwise nothing happens. -/
theorem pushIfNew_iff (l : SymbolList) (s : Symbol) :
    ((l.pushIfNew s).1 = true ↔ (l.pushIfNew s).2.toList = l.toList ++ [s]) ∧
    ((l.pushIfNew s).1 = false ↔ (l.pushIfNew s).2 = l) := by
  rw [pushIfNew_eq]
  cases listed : l.holds s with
  | true => simp [push, listed]
  | false =>
    have grown : (l.push s).toList = l.toList ++ [s] := by simp [toList_push, listed]
    have other : l.push s ≠ l := by
      intro same
      rw [same] at grown
      simp at grown
    simp [grown, other]

/-- What a list has comes from one directory or from the other. -/
theorem countFrom_add_countFrom (l : SymbolList) :
    l.countFrom .classic + l.countFrom .delayed = l.size := by
  have other : l.countFrom .delayed = l.toList.countP fun s => ¬decide (s.source = .classic) := by
    apply List.countP_congr
    intro s _
    cases s.source <;> decide
  rw [other, countFrom, ← List.length_eq_countP_add_countP]
  rfl

/-! ## Collecting again -/

theorem ofList_concat (symbols : List Symbol) (last : Symbol) :
    ofList (symbols ++ [last]) = (ofList symbols).push last :=
  ofList_append symbols [last]

/-- Symbols that were not listed leave no trace, in the set of keys either. -/
theorem ofList_firsts (symbols : List Symbol) : ofList (firsts symbols) = ofList symbols := by
  induction symbols using List.reverseRecOn with
  | nil => rfl
  | append_singleton symbols last ih =>
    by_cases known : last.key ∈ symbols.map Symbol.key
    · have listed : (ofList symbols).holds last = true := (holds_ofList ..).mpr known
      rw [firsts_concat_of_mem known, ofList_concat, push, if_pos listed, ih]
    · rw [firsts_concat_of_not_mem known, ofList_concat, ofList_concat, ih]

/-! ## Operations -/

/-- What can be done to a list. Collecting puts a new one in its place. -/
inductive Operation
  | push (s : Symbol)
  | extend (symbols : List Symbol)
  | collect (symbols : List Symbol)

def apply (l : SymbolList) : Operation → SymbolList
  | .push s => (l.pushIfNew s).2
  | .extend symbols => l.append symbols
  | .collect symbols => ofList symbols

/-- The symbols that a list has been offered since it was started. -/
def offers (before : List Symbol) : Operation → List Symbol
  | .push s => before ++ [s]
  | .extend symbols => before ++ symbols
  | .collect symbols => symbols

def run (operations : List Operation) : SymbolList := operations.foldl apply empty

def offered (operations : List Operation) : List Symbol := operations.foldl offers []

theorem apply_ofList (before : List Symbol) (o : Operation) :
    (ofList before).apply o = ofList (offers before o) := by
  cases o with
  | push s => rw [apply, offers, pushIfNew_eq, ofList_concat]
  | extend symbols => rw [apply, offers, ofList_append]
  | collect symbols => rfl

theorem run_eq_ofList (operations : List Operation) :
    run operations = ofList (offered operations) := by
  have run_from (before : List Symbol) :
      operations.foldl apply (ofList before) = ofList (operations.foldl offers before) := by
    induction operations generalizing before with
    | nil => rfl
    | cons o operations ih => rw [List.foldl_cons, apply_ofList, ih, List.foldl_cons]
  exact run_from []

/-- Whatever was done to a list, it has the first symbol of each identity that it was offered, and
its keys are their identities. What a push says is what it does, and collecting the symbols of the
list once more gives the list. -/
theorem run_offered (operations : List Operation) :
    let l := run operations
    l.toList = firstOccurrences (offered operations) ∧
    (l.toList.map Symbol.identity).Nodup ∧
    (∀ key, key ∈ l.keys ↔ key ∈ l.toList.map Symbol.identity) ∧
    (∀ s, ((l.pushIfNew s).1 = true ↔ s.identity ∉ l.toList.map Symbol.identity) ∧
      ((l.pushIfNew s).1 = true ↔ (l.pushIfNew s).2.toList = l.toList ++ [s]) ∧
      ((l.pushIfNew s).1 = false ↔ (l.pushIfNew s).2 = l)) ∧
    (∀ a b, ofList (a ++ b) = (ofList a).append b) ∧
    ofList l.toList = l ∧
    l.countFrom .classic + l.countFrom .delayed = l.size := by
  intro l
  have collected : l = ofList (offered operations) := run_eq_ofList operations
  have listed : l.toList = firsts (offered operations) := by rw [collected, toList_ofList]
  have consistent : l.Consistent := by
    rw [collected]
    exact consistent_empty.append _
  rw [← Symbol.key_eq_identity]
  refine ⟨?_, consistent.distinct, consistent.keys,
    fun s => ⟨consistent.pushIfNew_iff_key s, l.pushIfNew_iff s⟩, ofList_append, ?_,
    l.countFrom_add_countFrom⟩
  · rw [listed, firsts_eq_firstOccurrences]
  · rw [listed, ofList_firsts, collected]

/-- A list that is started anew. One symbol is offered in three spellings, and one by its number and
by a name that is shown alike. -/
def respelled : List Operation :=
  [.push ⟨"user32.dll", .named "MessageBoxW", .classic⟩,
   .collect
    [⟨" Kernel32.DLL", .named "CreateFileW", .classic⟩,
     ⟨"kernel32.dll", .named "createfilew", .delayed⟩],
   .push ⟨"KERNEL32.dll ", .ordinal 12, .delayed⟩,
   .extend
    [⟨"kernel32.dll", .named "#12", .classic⟩, ⟨"kernel32.dll", .named "CREATEFILEW", .classic⟩,
     ⟨"kernel32", .named "CreateFileW", .classic⟩]]

theorem run_offered_respelled :
    let l := run respelled
    l.toList =
      [⟨" Kernel32.DLL", .named "CreateFileW", .classic⟩, ⟨"KERNEL32.dll ", .ordinal 12, .delayed⟩,
       ⟨"kernel32", .named "CreateFileW", .classic⟩] ∧
    ("kernel32.dll", "createfilew") ∈ l.keys ∧ ("kernel32.dll", "#12") ∈ l.keys ∧
    ("user32.dll", "messageboxw") ∉ l.keys ∧
    (l.pushIfNew ⟨"kernel32.dll", .named "#12", .delayed⟩).1 = false ∧
    (l.pushIfNew ⟨"user32.dll", .named "#12", .delayed⟩).1 = true := by
  intro l
  obtain ⟨listed, -, keys, new, -⟩ := run_offered respelled
  have three : l.toList =
      [⟨" Kernel32.DLL", .named "CreateFileW", .classic⟩, ⟨"KERNEL32.dll ", .ordinal 12, .delayed⟩,
       ⟨"kernel32", .named "CreateFileW", .classic⟩] :=
    listed.trans (by decide +kernel)
  rw [three] at keys new
  refine ⟨three, (keys _).mpr (by decide +kernel), (keys _).mpr (by decide +kernel), ?_, ?_, ?_⟩
  · exact fun listed => absurd ((keys _).mp listed) (by decide +kernel)
  · exact Bool.eq_false_iff.mpr fun isNew => absurd ((new _).1.mp isNew) (by decide +kernel)
  · exact (new _).1.mpr (by decide +kernel)

end SymbolList

end WinFloor.Import

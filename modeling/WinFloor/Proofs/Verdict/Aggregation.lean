import WinFloor.Proofs.Catalog.LetterCase
import WinFloor.Proofs.Import.SymbolList
import WinFloor.Verdict

/-!
The build that symbols need together. It is the highest that any listed symbol needs
(`lt_build_iff`). Of the symbols with one key only the first is listed, so that the build of all is
the build of the parts only where symbols with one key need the same: that is so if their names are
marked alike (`need_eq_of_key`, `build_append`), and may fail otherwise (`build_append_hidden`).
-/
namespace WinFloor

open Import Text

namespace Import.SymbolName

/-- Whether a name ends in a character set letter; ordinals do not have a name. -/
def marked? : SymbolName → Option Bool
  | named text => some (SymbolStem.isMarked text)
  | ordinal _ => none

end Import.SymbolName

namespace Matcher

/-- The build that a symbol needs by itself. -/
def need (m : Matcher) (s : Symbol) : Nat :=
  match s.name with
  | .named text => (m.resolve s.moduleName text).build
  | .ordinal _ => 0

/-- The build that symbols need once they have been listed. -/
def build (m : Matcher) (symbols : List Symbol) : Nat :=
  (m.verdict (.ofList symbols)).verdict.build

/-- What one symbol adds to a verdict. -/
def step (m : Matcher) (v : ApiVerdict) (s : Symbol) : ApiVerdict :=
  match s.name with
  | .named text => v.add s.moduleName text (m.resolve s.moduleName text)
  | .ordinal _ => v

theorem verdict_eq_foldl (m : Matcher) (l : SymbolList) :
    m.verdict l = l.toList.foldl m.step .start :=
  rfl

/-! ## The highest need -/

theorem lt_build_add (v : ApiVerdict) (moduleName symbol : String) (found : Match) (n : Nat) :
    n < (v.add moduleName symbol found).verdict.build ↔ n < v.verdict.build ∨ n < found.build := by
  have higher (a b : Nat) : n < Nat.max a b ↔ n < a ∨ n < b := by
    change n < max a b ↔ n < a ∨ n < b
    omega
  cases found with
  | miss => simp [ApiVerdict.add, Match.build, Match.found?]
  | direct d => simp only [ApiVerdict.add, Verdict.build_max, higher]
  | fallback host d => simp only [ApiVerdict.add, Verdict.build_max, higher]

theorem lt_build_step (m : Matcher) (v : ApiVerdict) (s : Symbol) (n : Nat) :
    n < (m.step v s).verdict.build ↔ n < v.verdict.build ∨ n < m.need s := by
  cases name : s.name with
  | named text => simp only [step, need, name, lt_build_add]
  | ordinal number => simp [step, need, name]

theorem lt_build_foldl (m : Matcher) (symbols : List Symbol) (v : ApiVerdict) (n : Nat) :
    n < (symbols.foldl m.step v).verdict.build ↔
      n < v.verdict.build ∨ ∃ s ∈ symbols, n < m.need s := by
  induction symbols generalizing v with
  | nil => simp
  | cons s symbols ih =>
    rw [List.foldl_cons, ih, lt_build_step, List.exists_mem_cons_iff, or_assoc]

theorem lt_build_iff (m : Matcher) (symbols : List Symbol) (n : Nat) :
    n < m.build symbols ↔ ∃ s ∈ firsts symbols, n < m.need s := by
  have start : ¬n < ApiVerdict.start.verdict.build := Nat.not_lt_zero n
  rw [build, verdict_eq_foldl, lt_build_foldl, or_iff_right start, SymbolList.toList_ofList]

theorem build_le_iff (m : Matcher) (symbols : List Symbol) (n : Nat) :
    m.build symbols ≤ n ↔ ∀ s ∈ firsts symbols, m.need s ≤ n := by
  rw [← Nat.not_lt, lt_build_iff]
  simp

/-- The build depends on the listed symbols only. -/
theorem build_congr (m : Matcher) {a b : List Symbol} (same : firsts a = firsts b) :
    m.build a = m.build b := by
  rw [build, build, verdict_eq_foldl, verdict_eq_foldl, SymbolList.toList_ofList,
    SymbolList.toList_ofList, same]

theorem need_le_build (m : Matcher) {symbols : List Symbol} {s : Symbol}
    (listed : s ∈ firsts symbols) : m.need s ≤ m.build symbols :=
  (build_le_iff ..).mp (Nat.le_refl _) s listed

/-- Without hosts a symbol needs what the catalog says of it. -/
theorem need_noHosts (c : Catalog) (moduleName text : String) (source : Source) :
    (Matcher.mk c .empty).need ⟨moduleName, .named text, source⟩ =
      ((c.lookup (ModuleName.normalize moduleName) text).map Declaration.build).getD 0 := by
  have none (name : String) : ApiSet.HostTable.empty.hosts name = [] := by
    rw [ApiSet.HostTable.hosts, ApiSet.HostTable.rule?]
    cases ApiSet.family? (ModuleName.normalize name) <;> rfl
  simp only [need, resolve]
  cases c.lookup (ModuleName.normalize moduleName) text with
  | none => simp [none, Match.build, Match.found?]
  | some d => simp [Match.build, Match.found?]

/-! ## Symbols with one key -/

theorem resolve_eq_of_key (m : Matcher) {m₁ m₂ s₁ s₂ : String}
    (modules : ModuleName.normalize m₁ = ModuleName.normalize m₂)
    (symbols : lowerAscii s₁ = lowerAscii s₂)
    (marked : SymbolStem.isMarked s₁ = SymbolStem.isMarked s₂) :
    m.resolve m₁ s₁ = m.resolve m₂ s₂ := by
  have found (moduleName : String) :
      m.catalog.lookup moduleName s₁ = m.catalog.lookup moduleName s₂ :=
    Catalog.lookup_eq_of_lowerAscii _ rfl symbols marked
  simp only [resolve, modules, found]

theorem need_eq_of_key (m : Matcher) {s t : Symbol} (same : s.key = t.key)
    (marked : s.name.marked? = t.name.marked?) : m.need s = m.need t := by
  obtain ⟨modules, symbols⟩ := Prod.mk.inj same
  cases first : s.name with
  | named text =>
    cases second : t.name with
    | named other =>
      simp only [first, second, SymbolName.display] at symbols
      simp only [first, second, SymbolName.marked?, Option.some.injEq] at marked
      simp only [need, first, second, resolve_eq_of_key m modules symbols marked]
    | ordinal number => simp [first, second, SymbolName.marked?] at marked
  | ordinal number =>
    cases second : t.name with
    | named other => simp [first, second, SymbolName.marked?] at marked
    | ordinal other => simp [need, first, second]

/-! ## Symbols taken together -/

theorem build_mono (m : Matcher) {a b : List Symbol} (h : a <+: b) : m.build a ≤ m.build b := by
  rw [build_le_iff]
  intro s listed
  exact need_le_build m ((firsts_mono h).subset listed)

theorem build_singleton (m : Matcher) (s : Symbol) : m.build [s] = m.need s := by
  have only : firsts [s] = [s] := firsts_cons s []
  apply Nat.le_antisymm
  · rw [build_le_iff, only]
    simp
  · apply need_le_build
    rw [only]
    exact List.mem_cons_self

/-- Of two symbols with one key the second does not count. -/
theorem build_pair (m : Matcher) {s t : Symbol} (same : t.key = s.key) :
    m.build ([s] ++ [t]) = m.need s := by
  have hidden : firsts ([s] ++ [t]) = firsts [s] :=
    firsts_concat_of_mem (List.mem_singleton.mpr same)
  rw [build_congr m hidden, build_singleton]

theorem build_append_le (m : Matcher) (a b : List Symbol) :
    m.build (a ++ b) ≤ Nat.max (m.build a) (m.build b) := by
  rw [build_le_iff]
  intro s listed
  rcases mem_firsts_append.mp listed with earlier | ⟨later, -⟩
  · exact Nat.le_trans (need_le_build m earlier) (Nat.le_max_left ..)
  · exact Nat.le_trans (need_le_build m later) (Nat.le_max_right ..)

/-- Symbols of two lists that have one key have names that are marked alike. -/
def MarkedAlike (a b : List Symbol) : Prop :=
  ∀ s ∈ a, ∀ t ∈ b, s.key = t.key → s.name.marked? = t.name.marked?

/-- A symbol that is not listed itself needs what the listed one with its key needs. -/
theorem need_le_build_of_mem (m : Matcher) {a : List Symbol} {t : Symbol}
    (alike : ∀ s ∈ a, s.key = t.key → s.name.marked? = t.name.marked?)
    (known : t.key ∈ a.map Symbol.key) : m.need t ≤ m.build a := by
  obtain ⟨s, listed, same⟩ := List.mem_map.mp (mem_keys_firsts.mpr known)
  rw [← need_eq_of_key m same (alike s (mem_of_mem_firsts listed) same)]
  exact need_le_build m listed

theorem le_build_append (m : Matcher) {a b : List Symbol} (alike : MarkedAlike a b) :
    m.build b ≤ m.build (a ++ b) := by
  rw [build_le_iff]
  intro t listed
  by_cases known : t.key ∈ a.map Symbol.key
  · have alike' : ∀ s ∈ a, s.key = t.key → s.name.marked? = t.name.marked? :=
      fun s inA => alike s inA t (mem_of_mem_firsts listed)
    exact Nat.le_trans (need_le_build_of_mem m alike' known)
      (build_mono m (List.prefix_append ..))
  · exact need_le_build m (mem_firsts_append.mpr (.inr ⟨listed, known⟩))

theorem build_le_of_subset (m : Matcher) {a b : List Symbol} (alike : MarkedAlike b b)
    (included : a ⊆ b) : m.build a ≤ m.build b := by
  rw [build_le_iff]
  intro s listed
  have inB := included (mem_of_mem_firsts listed)
  exact need_le_build_of_mem m (fun t inB' => alike t inB' s inB) (List.mem_map_of_mem inB)

/-- Symbols that come later never lower the build, and it never exceeds the builds of the parts. It
is the higher of these, and the same in any order, where symbols with one key are marked alike. -/
theorem build_append (m : Matcher) (a b : List Symbol) :
    m.build a ≤ m.build (a ++ b) ∧
    m.build (a ++ b) ≤ Nat.max (m.build a) (m.build b) ∧
    (MarkedAlike a b → m.build (a ++ b) = Nat.max (m.build a) (m.build b)) ∧
    (MarkedAlike a a → ∀ c : List Symbol, a.Perm c → m.build c = m.build a) := by
  have grows := build_mono m (List.prefix_append a b)
  refine ⟨grows, build_append_le m a b, ?_, ?_⟩
  · intro alike
    apply Nat.le_antisymm (build_append_le m a b)
    exact Nat.max_le.mpr ⟨grows, le_build_append m alike⟩
  · intro alike c order
    have alike' : MarkedAlike c c := fun s inC t inC' =>
      alike s (order.mem_iff.mpr inC) t (order.mem_iff.mpr inC')
    exact Nat.le_antisymm (build_le_of_subset m alike order.symm.subset)
      (build_le_of_subset m alike' order.subset)

/-- A catalog in which a function has a name that an ordinal is displayed by. -/
def numberedFunctions : Matcher :=
  ⟨.ofList [Catalog.createFile, ⟨"kernel32.dll", "#7", ⟨9200, "windows8.0"⟩⟩], .empty⟩

def capitals : List Symbol :=
  [⟨"KERNEL32.dll", .named "CREATEFILEW", .classic⟩]

def delayedSpellings : List Symbol :=
  [⟨"kernel32.DLL", .named "CreateFileW", .delayed⟩, ⟨"kernel32.dll", .ordinal 7, .delayed⟩]

theorem build_append_spellings :
    MarkedAlike capitals delayedSpellings ∧
    numberedFunctions.build (capitals ++ delayedSpellings) =
      Nat.max (numberedFunctions.build capitals) (numberedFunctions.build delayedSpellings) := by
  have alike : MarkedAlike capitals delayedSpellings := by
    unfold MarkedAlike
    decide +kernel
  exact ⟨alike, (build_append numberedFunctions capitals delayedSpellings).2.2.1 alike⟩

/-- A symbol that needs nothing hides one with its key that needs something: where the letter for
the character set is a small one, and where an ordinal is displayed like a name. -/
theorem build_append_hidden :
    (numberedFunctions.build ([⟨"kernel32.dll", .named "createfilew", .classic⟩] ++
        [⟨"kernel32.dll", .named "CreateFileW", .classic⟩]) = 0 ∧
      numberedFunctions.build [⟨"kernel32.dll", .named "createfilew", .classic⟩] = 0 ∧
      numberedFunctions.build [⟨"kernel32.dll", .named "CreateFileW", .classic⟩] = 7600) ∧
    (numberedFunctions.build ([⟨"kernel32.dll", .ordinal 7, .classic⟩] ++
        [⟨"kernel32.dll", .named "#7", .classic⟩]) = 0 ∧
      numberedFunctions.build [⟨"kernel32.dll", .ordinal 7, .classic⟩] = 0 ∧
      numberedFunctions.build [⟨"kernel32.dll", .named "#7", .classic⟩] = 9200) := by
  rw [build_pair _ (by decide +kernel), build_pair _ (by decide +kernel)]
  simp only [build_singleton, numberedFunctions, need_noHosts, Catalog.lookup_ofList]
  decide +kernel

end Matcher

end WinFloor

import WinFloor.Proofs.Verdict.Choice

/-!
A rule put behind those of a table of hosts. It is asked for a module only where none of the others
is one for it, so that all that was found is found as before, and what was missed may now be found
at one of its hosts (`resolve_withRule`). Symbols taken together then need no less than before, and
no fewer of them are found (`verdict_withRule`).
-/
namespace WinFloor

namespace ApiSet

/-- Whether a module belongs to the family of a rule. -/
def Rule.isFor (r : Rule) (moduleName : String) : Bool :=
  (family? (ModuleName.normalize moduleName)).any r.covers

namespace HostTable

variable (t : HostTable) (moduleName : String)

theorem rule?_eq : t.rule? moduleName = t.rules.find? (·.isFor moduleName) := by
  unfold rule? Rule.isFor
  cases family? (ModuleName.normalize moduleName) with
  | none => exact (List.find?_eq_none.mpr fun _ _ => Bool.false_ne_true).symm
  | some family => rfl

theorem hosts_normalize : t.hosts (ModuleName.normalize moduleName) = t.hosts moduleName := by
  rw [hosts, rule?, ModuleName.normalize_normalize]
  rfl

/-- The rules before it go first. -/
theorem rule?_withRule (family : String) (hosts : List String) :
    (t.withRule family hosts).rule? moduleName =
      (t.rule? moduleName).or (Option.guard (·.isFor moduleName) (Rule.of family hosts)) := by
  rw [rule?_eq, rule?_eq, withRule, List.find?_append, List.find?_singleton, Option.guard]

end HostTable

end ApiSet

open ApiSet Import

namespace Matcher

/-- A function that is looked up under each of the hosts in order. -/
def atHosts (c : Catalog) (hosts : List String) (symbol : String) : Match :=
  (hosts.findSome? fun host => (c.lookup host symbol).map (.fallback host)).getD .miss

theorem atHosts_cases (c : Catalog) (hosts : List String) (symbol : String) :
    atHosts c hosts symbol = .miss ∨
      ∃ host ∈ hosts, ∃ d, c.lookup host symbol = some d ∧
        atHosts c hosts symbol = .fallback host d := by
  cases found : hosts.findSome? fun host => (c.lookup host symbol).map (Match.fallback host) with
  | none => exact .inl (by rw [atHosts, found, Option.getD_none])
  | some there =>
    obtain ⟨host, listed, known⟩ := List.exists_of_findSome?_eq_some found
    obtain ⟨d, answer, rfl⟩ := Option.map_eq_some_iff.mp known
    exact .inr ⟨host, listed, d, answer, by rw [atHosts, found, Option.getD_some]⟩

theorem resolve_of_known {m : Matcher} {moduleName symbol : String} {d : Declaration}
    (known : m.catalog.lookup (ModuleName.normalize moduleName) symbol = some d) :
    m.resolve moduleName symbol = .direct d := by
  simp only [resolve, known]

theorem resolve_of_unknown {m : Matcher} {moduleName symbol : String}
    (unknown : m.catalog.lookup (ModuleName.normalize moduleName) symbol = none) :
    m.resolve moduleName symbol = atHosts m.catalog (m.hosts.hosts moduleName) symbol := by
  simp only [resolve, unknown, HostTable.hosts_normalize]
  rfl

end Matcher

/-! ## Matches -/

/-- A match stays, or it is a miss that becomes a fallback. -/
def Match.Widens (before after : Match) : Prop :=
  after = before ∨ before = .miss ∧ after.isFallback = true

namespace Match.Widens

variable {before after : Match}

theorem found (h : before.Widens after) (hit : before ≠ .miss) : after ≠ .miss := by
  rcases h with rfl | ⟨missed, -⟩
  · exact hit
  · exact absurd missed hit

theorem fallback (h : before.Widens after) (hosted : before.isFallback = true) :
    after.isFallback = true := by
  rcases h with rfl | ⟨-, hosted'⟩
  · exact hosted
  · exact hosted'

theorem build_le (h : before.Widens after) : before.build ≤ after.build := by
  rcases h with rfl | ⟨rfl, -⟩
  · exact Nat.le_refl _
  · exact Nat.zero_le _

theorem direct_iff (h : before.Widens after) (d : Declaration) :
    before = .direct d ↔ after = .direct d := by
  rcases h with rfl | ⟨rfl, hosted⟩
  · exact Iff.rfl
  · constructor
    · exact Match.noConfusion
    · rintro rfl
      cases hosted

end Match.Widens

namespace Matcher

/-- The same catalog, and one more rule behind those of the table. -/
def withRule (m : Matcher) (family : String) (hosts : List String) : Matcher :=
  { m with hosts := m.hosts.withRule family hosts }

variable (m : Matcher) (family : String) (hosts : List String)

theorem resolve_withRule (moduleName symbol : String) :
    (m.withRule family hosts).resolve moduleName symbol = m.resolve moduleName symbol ∨
      m.resolve moduleName symbol = .miss ∧
      (¬∃ r ∈ m.hosts.rules, r.isFor moduleName = true) ∧
      (Rule.of family hosts).isFor moduleName = true ∧
      ∃ host ∈ (Rule.of family hosts).hosts, ∃ d, m.catalog.lookup host symbol = some d ∧
        (m.withRule family hosts).resolve moduleName symbol = .fallback host d := by
  have same : (m.withRule family hosts).catalog = m.catalog := rfl
  have table : (m.withRule family hosts).hosts = m.hosts.withRule family hosts := rfl
  cases known : m.catalog.lookup (ModuleName.normalize moduleName) symbol with
  | some d =>
    left
    rw [resolve_of_known (same ▸ known), resolve_of_known known]
  | none =>
    rw [resolve_of_unknown (m := m.withRule family hosts) (same ▸ known), resolve_of_unknown known,
      same, table]
    simp only [HostTable.hosts, HostTable.rule?_withRule]
    cases first : m.hosts.rule? moduleName with
    | some r => exact .inl rfl
    | none =>
      -- No other rule is for the module, so the new one is asked.
      rw [HostTable.rule?_eq, List.find?_eq_none] at first
      rw [Option.none_or, Option.guard]
      split
      next isFor =>
        rcases atHosts_cases m.catalog (Rule.of family hosts).hosts symbol with missed | found
        · exact .inl missed
        · refine .inr ⟨rfl, ?_, isFor, found⟩
          rintro ⟨r, listed, other⟩
          exact first r listed other
      next => exact .inl rfl

theorem widens_withRule (moduleName symbol : String) :
    (m.resolve moduleName symbol).Widens
      ((m.withRule family hosts).resolve moduleName symbol) := by
  rcases m.resolve_withRule family hosts moduleName symbol with same | ⟨missed, -, -, found⟩
  · exact .inl same
  · obtain ⟨host, -, d, -, after⟩ := found
    exact .inr ⟨missed, by rw [after]; rfl⟩

end Matcher

/-! ## Verdicts -/

/-- One verdict counts no more symbols than another, and asks for no more. -/
structure ApiVerdict.AtMost (v w : ApiVerdict) : Prop where
  mapped : v.mapped ≤ w.mapped
  fallbacks : v.fallbacks ≤ w.fallbacks
  build : v.verdict.build ≤ w.verdict.build

theorem count_le {p q : Prop} [Decidable p] [Decidable q] (h : p → q) :
    (if p then 1 else 0) ≤ if q then 1 else 0 := by
  split
  next holds => rw [if_pos (h holds)]
  next => exact Nat.zero_le _

namespace ApiVerdict.AtMost

variable {v w : ApiVerdict}

theorem refl (v : ApiVerdict) : v.AtMost v := ⟨Nat.le_refl _, Nat.le_refl _, Nat.le_refl _⟩

theorem add (h : v.AtMost w) {before after : Match} (wider : before.Widens after)
    (moduleName symbol : String) :
    (v.add moduleName symbol before).AtMost (w.add moduleName symbol after) := by
  have mapped (v : ApiVerdict) (m : Match) := NamedMatch.mapped_add v ⟨moduleName, symbol, m⟩
  have fallbacks (v : ApiVerdict) (m : Match) := NamedMatch.fallbacks_add v ⟨moduleName, symbol, m⟩
  simp only [NamedMatch.add] at mapped fallbacks
  constructor
  · rw [mapped, mapped]
    exact Nat.add_le_add h.mapped (count_le wider.found)
  · rw [fallbacks, fallbacks]
    exact Nat.add_le_add h.fallbacks (count_le wider.fallback)
  · apply le_of_forall_lt
    intro n less
    rw [Matcher.lt_build_add] at less ⊢
    exact less.imp (Nat.lt_of_lt_of_le · h.build) (Nat.lt_of_lt_of_le · wider.build_le)

end ApiVerdict.AtMost

namespace Matcher

section
variable {m m' : Matcher}
  (wider : ∀ moduleName symbol, (m.resolve moduleName symbol).Widens (m'.resolve moduleName symbol))
include wider

theorem step_atMost {v w : ApiVerdict} (h : v.AtMost w) (s : Symbol) :
    (m.step v s).AtMost (m'.step w s) := by
  cases name : s.name with
  | named text =>
    simp only [step, name]
    exact h.add (wider s.moduleName text) s.moduleName text
  | ordinal number =>
    simp only [step, name]
    exact h

theorem verdict_atMost (l : SymbolList) : (m.verdict l).AtMost (m'.verdict l) := by
  have run (symbols : List Symbol) {v w : ApiVerdict} (h : v.AtMost w) :
      (symbols.foldl m.step v).AtMost (symbols.foldl m'.step w) := by
    induction symbols generalizing v w with
    | nil => exact h
    | cons s symbols ih => exact ih (step_atMost wider h s)
  exact run l.toList (.refl _)

end

/-- A rule at the end of a table finds more, and nothing otherwise. A function is found as before
unless it was missed and no rule was for its module; then it may be found at a host of the new rule.
So no count goes down, nor does the build. -/
theorem verdict_withRule (m : Matcher) (family : String) (hosts : List String) :
    let wider := m.withRule family hosts
    (∀ moduleName symbol,
      (wider.resolve moduleName symbol = m.resolve moduleName symbol ∨
        m.resolve moduleName symbol = .miss ∧
        (¬∃ r ∈ m.hosts.rules, r.isFor moduleName = true) ∧
        (Rule.of family hosts).isFor moduleName = true ∧
        ∃ host ∈ (Rule.of family hosts).hosts, ∃ d, m.catalog.lookup host symbol = some d ∧
          wider.resolve moduleName symbol = .fallback host d) ∧
      ∀ d, m.resolve moduleName symbol = .direct d ↔ wider.resolve moduleName symbol = .direct d) ∧
    ∀ l, (m.verdict l).mapped ≤ (wider.verdict l).mapped ∧
      (m.verdict l).fallbacks ≤ (wider.verdict l).fallbacks ∧
      (m.verdict l).verdict.build ≤ (wider.verdict l).verdict.build := by
  intro wider
  have widens := m.widens_withRule family hosts
  refine ⟨fun moduleName symbol => ⟨?_, ?_⟩, fun l => ?_⟩
  · exact m.resolve_withRule family hosts moduleName symbol
  · exact (widens moduleName symbol).direct_iff
  · have grown := verdict_atMost widens l
    exact ⟨grown.mapped, grown.fallbacks, grown.build⟩

end Matcher

end WinFloor

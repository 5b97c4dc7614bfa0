import WinFloor.Assessment
import WinFloor.Proofs.Verdict.Aggregation

/-!
What an assessment says, told from the named symbols of an image and from the versions in its
header. Counting one symbol after the other comes to the same as looking at all of them at once
(`mapped_foldl`, `verdict_foldl`): the build is the highest that any of them needs, and the reason
is that of the first which needs so much. With the header the higher of the two sides decides, and
the symbols do on a tie (`assess_answers`).
-/
namespace WinFloor

open Import

/-- A symbol with a name, and how it was found. -/
structure NamedMatch where
  moduleName : String
  text : String
  found : Match

namespace NamedMatch

def reason (n : NamedMatch) : String := n.found.reason n.moduleName n.text

/-- The highest build that any of the symbols needs, zero if there are none. -/
def highest (ns : List NamedMatch) : Nat :=
  ns.foldr (fun n most => Nat.max n.found.build most) 0

/-- Why the highest build is needed: the reason of the first symbol that needs it. -/
def highestReason (ns : List NamedMatch) : String :=
  if highest ns = 0 then "unknown"
  else ((ns.find? fun n => n.found.build = highest ns).map reason).getD "unknown"

def add (v : ApiVerdict) (n : NamedMatch) : ApiVerdict :=
  v.add n.moduleName n.text n.found

theorem highest_cons (n : NamedMatch) (ns : List NamedMatch) :
    highest (n :: ns) = max n.found.build (highest ns) :=
  rfl

end NamedMatch

namespace Matcher

/-- The symbols that have a name, in their order, each with how it is found. -/
def namedMatches (m : Matcher) (l : SymbolList) : List NamedMatch :=
  l.toList.filterMap fun s =>
    s.name.text?.map fun text => ⟨s.moduleName, text, m.resolve s.moduleName text⟩

theorem length_namedMatches_le (m : Matcher) (l : SymbolList) :
    (m.namedMatches l).length ≤ l.size :=
  List.length_filterMap_le ..

/-- Symbols without a name do not count. -/
theorem verdict_eq_foldl_add (m : Matcher) (l : SymbolList) :
    m.verdict l = (m.namedMatches l).foldl NamedMatch.add .start := by
  rw [verdict_eq_foldl, namedMatches, List.foldl_filterMap]
  congr 1
  funext v s
  cases name : s.name with
  | named text => simp [step, name, SymbolName.text?, NamedMatch.add]
  | ordinal number => simp [step, name, SymbolName.text?]

end Matcher

/-! ## One symbol after the other -/

namespace NamedMatch

theorem mapped_add (v : ApiVerdict) (n : NamedMatch) :
    (add v n).mapped = v.mapped + if n.found ≠ .miss then 1 else 0 := by
  cases found : n.found <;> simp [add, ApiVerdict.add, found]

theorem fallbacks_add (v : ApiVerdict) (n : NamedMatch) :
    (add v n).fallbacks = v.fallbacks + if n.found.isFallback then 1 else 0 := by
  cases found : n.found <;> simp [add, ApiVerdict.add, found, Match.isFallback]

/-- A symbol takes over only if it needs more. One that was not found needs nothing. -/
theorem verdict_add (v : ApiVerdict) (n : NamedMatch) :
    (add v n).verdict =
      if v.verdict.build < n.found.build then ⟨n.found.build, n.reason⟩ else v.verdict := by
  cases found : n.found with
  | direct d => simp [add, ApiVerdict.add, found, Verdict.max, reason]
  | fallback host d => simp [add, ApiVerdict.add, found, Verdict.max, reason]
  | miss => simp [add, ApiVerdict.add, found, Match.build, Match.found?]

/-! ## All symbols -/

theorem mapped_foldl (ns : List NamedMatch) (v : ApiVerdict) :
    (ns.foldl add v).mapped = v.mapped + ns.countP (·.found ≠ .miss) := by
  induction ns generalizing v with
  | nil => rfl
  | cons n ns ih =>
    rw [List.foldl_cons, ih, mapped_add, List.countP_cons]
    simp only [decide_eq_true_eq]
    omega

theorem fallbacks_foldl (ns : List NamedMatch) (v : ApiVerdict) :
    (ns.foldl add v).fallbacks = v.fallbacks + ns.countP (·.found.isFallback) := by
  induction ns generalizing v with
  | nil => rfl
  | cons n ns ih =>
    rw [List.foldl_cons, ih, fallbacks_add, List.countP_cons]
    omega

/-- A verdict stands against symbols that need no more than it says, and gives way to the first of
those that need the most. -/
theorem verdict_foldl (ns : List NamedMatch) (v : ApiVerdict) :
    (ns.foldl add v).verdict =
      if v.verdict.build < highest ns then ⟨highest ns, highestReason ns⟩ else v.verdict := by
  induction ns generalizing v with
  | nil => rfl
  | cons n ns ih =>
    have first (same : n.found.build = highest (n :: ns)) (some : 0 < n.found.build) :
        highestReason (n :: ns) = n.reason := by
      rw [highestReason, if_neg (by omega), List.find?_cons_of_pos (by simpa using same)]
      rfl
    have later (less : n.found.build < highest ns) :
        highestReason (n :: ns) = highestReason ns := by
      have same : highest (n :: ns) = highest ns := by
        rw [highest_cons]
        omega
      rw [highestReason, same, List.find?_cons_of_neg (by simp; omega), highestReason]
    have most := highest_cons n ns
    rw [List.foldl_cons, ih, verdict_add]
    by_cases takesOver : v.verdict.build < n.found.build
    · simp only [if_pos takesOver]
      by_cases more : n.found.build < highest ns
      · rw [if_pos more, if_pos (by omega), later more, most, Nat.max_eq_right (by omega)]
      · rw [if_neg more, if_pos (by omega), first (by omega) (by omega), most,
          Nat.max_eq_left (by omega)]
    · rw [if_neg takesOver]
      by_cases more : v.verdict.build < highest ns
      · rw [if_pos more, if_pos (by omega), later (by omega), most, Nat.max_eq_right (by omega)]
      · rw [if_neg more, if_neg (by omega)]

theorem countP_isFallback_le (ns : List NamedMatch) :
    ns.countP (·.found.isFallback) ≤ ns.countP (·.found ≠ .miss) := by
  apply List.countP_mono_left
  intro n _ fallback
  rw [decide_eq_true_iff]
  rintro miss
  rw [miss] at fallback
  cases fallback

end NamedMatch

namespace Matcher

theorem verdict_verdict (m : Matcher) (l : SymbolList) :
    (m.verdict l).verdict =
      ⟨NamedMatch.highest (m.namedMatches l), NamedMatch.highestReason (m.namedMatches l)⟩ := by
  rw [verdict_eq_foldl_add, NamedMatch.verdict_foldl]
  split
  next => rfl
  next nothing =>
    have zero : NamedMatch.highest (m.namedMatches l) = 0 := Nat.eq_zero_of_not_pos nothing
    rw [NamedMatch.highestReason, if_pos zero, zero]
    rfl

theorem mapped_verdict (m : Matcher) (l : SymbolList) :
    (m.verdict l).mapped = (m.namedMatches l).countP (·.found ≠ .miss) := by
  rw [verdict_eq_foldl_add, NamedMatch.mapped_foldl]
  exact Nat.zero_add _

theorem fallbacks_verdict (m : Matcher) (l : SymbolList) :
    (m.verdict l).fallbacks = (m.namedMatches l).countP (·.found.isFallback) := by
  rw [verdict_eq_foldl_add, NamedMatch.fallbacks_foldl]
  exact Nat.zero_add _

end Matcher

/-! ## The header -/

/-- What is said of a version where it decides. -/
def versionReason (label : String) (v : Image.Version) : String :=
  label ++ " version " ++ toString v.major.toNat ++ "." ++ toString v.minor.toNat

namespace Verdict

theorem build_ofHeader (h : Image.Header) :
    (ofHeader h).build =
      Nat.max (ofVersion "os" h.osVersion).build
        (ofVersion "subsystem" h.subsystemVersion).build := by
  rw [ofHeader, build_max, build_max]
  exact congrArg (Nat.max · _) (Nat.zero_max _)

/-- The version of the system is named unless that of the subsystem asks for more. -/
theorem reason_ofHeader {h : Image.Header} (asks : 0 < (ofHeader h).build) :
    (ofHeader h).reason =
      if (ofVersion "os" h.osVersion).build < (ofVersion "subsystem" h.subsystemVersion).build then
        (ofVersion "subsystem" h.subsystemVersion).reason
      else (ofVersion "os" h.osVersion).reason := by
  have zero : unknown.build = 0 := rfl
  rw [ofHeader] at asks ⊢
  generalize ofVersion "os" h.osVersion = os at asks ⊢
  generalize ofVersion "subsystem" h.subsystemVersion = subsystem at asks ⊢
  by_cases silent : os.build = 0
  · have unheard : unknown.max os = unknown := if_neg (by omega)
    rw [unheard, max, zero] at asks ⊢
    split at asks
    next more =>
      have : os.build < subsystem.build := by omega
      rw [if_pos more, if_pos this]
    next => exact absurd asks (Nat.lt_irrefl 0)
  · have heard : unknown.max os = os := if_pos (by omega)
    rw [heard, max]
    split <;> rfl

end Verdict

namespace Decision

variable {api header : Verdict}

theorem of_higher (more : api.build < header.build) :
    of api (some header) = ⟨⟨header.build, "header: " ++ header.reason⟩, .header⟩ :=
  if_pos more

theorem of_not_higher (most : ¬api.build < header.build) :
    of api (some header) = ⟨⟨api.build, "api: " ++ api.reason⟩, .api⟩ :=
  if_neg most

end Decision

/-- Named symbols are counted as found, as found at a host, and not at all where they were missed.
The highest build that one of them needs is asked for, and the first that needs it gives the reason.
Where the header counts, it decides if it asks for more than the symbols. -/
theorem Matcher.assess_answers (m : Matcher) (path : String) (h : Image.Header) (l : SymbolList) :
    let named := m.namedMatches l
    let symbols := NamedMatch.highest named
    let os := Platform.buildOfVersion h.osVersion.major.toNat h.osVersion.minor.toNat
    let subsystem :=
      Platform.buildOfVersion h.subsystemVersion.major.toNat h.subsystemVersion.minor.toNat
    let header := Nat.max os subsystem
    let bySymbols := m.assess path h l false
    let byBoth := m.assess path h l true
    (bySymbols.build = symbols ∧ bySymbols.reason = NamedMatch.highestReason named ∧
      bySymbols.signal = .api) ∧
    (byBoth.build = Nat.max symbols header ∧
      (byBoth.signal = .header ↔ symbols < header) ∧
      byBoth.reason =
        if symbols < header then
          "header: " ++
            if os < subsystem then versionReason "subsystem" h.subsystemVersion
            else versionReason "os" h.osVersion
        else "api: " ++ NamedMatch.highestReason named) ∧
    ∀ withHeader, let a := m.assess path h l withHeader
      a.mapped = named.countP (·.found ≠ .miss) ∧
      a.fallbacks = named.countP (·.found.isFallback) ∧
      a.symbols = l.size ∧
      a.fallbacks ≤ a.mapped ∧ a.mapped ≤ named.length ∧ named.length ≤ a.symbols := by
  intro named symbols os subsystem header bySymbols byBoth
  have api : (m.verdict l).verdict = ⟨symbols, NamedMatch.highestReason named⟩ :=
    verdict_verdict m l
  have asked : (Verdict.ofHeader h).build = header := Verdict.build_ofHeader h
  refine ⟨?_, ?_, ?_⟩
  · exact ⟨congrArg Verdict.build api, congrArg Verdict.reason api, rfl⟩
  · have decided : byBoth.build = (Decision.of _ (some _)).verdict.build ∧
        byBoth.signal = (Decision.of _ (some _)).signal ∧
        byBoth.reason = (Decision.of _ (some _)).verdict.reason := ⟨rfl, rfl, rfl⟩
    obtain ⟨build, signal, reason⟩ := decided
    rw [build, signal, reason]
    by_cases more : symbols < header
    · have higher : (m.verdict l).verdict.build < (Verdict.ofHeader h).build := by
        rw [api, asked]
        exact more
      have said : (Verdict.ofHeader h).reason =
          if os < subsystem then versionReason "subsystem" h.subsystemVersion
          else versionReason "os" h.osVersion :=
        Verdict.reason_ofHeader (Nat.zero_lt_of_lt higher)
      rw [Decision.of_higher higher, if_pos more, ← said]
      exact ⟨asked.trans (Nat.max_eq_right (Nat.le_of_lt more)).symm, iff_of_true rfl more, rfl⟩
    · have most : ¬(m.verdict l).verdict.build < (Verdict.ofHeader h).build := by
        rw [api, asked]
        exact more
      rw [Decision.of_not_higher most, if_neg more, api]
      refine ⟨(Nat.max_eq_left (Nat.not_lt.mp more)).symm, iff_of_false ?_ more, rfl⟩
      exact Signal.noConfusion
  · intro withHeader a
    have mapped : a.mapped = named.countP (·.found ≠ .miss) := mapped_verdict m l
    have fallbacks : a.fallbacks = named.countP (·.found.isFallback) := fallbacks_verdict m l
    refine ⟨mapped, fallbacks, rfl, ?_, ?_, length_namedMatches_le m l⟩
    · rw [mapped, fallbacks]
      exact NamedMatch.countP_isFallback_le named
    · rw [mapped]
      exact List.countP_le_length

end WinFloor

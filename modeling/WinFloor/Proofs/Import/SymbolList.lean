import Mathlib.Data.List.Induction
import WinFloor.Import.Symbol

/-!
What a list of symbols holds, told from the symbols that it was offered.

* `toList_ofList`: of the symbols with one key the first is listed, and the order stays;
* `firsts_append`: what comes later adds the symbols whose keys are new;
* `mem_keys_firsts`: no key gets lost.
-/
namespace WinFloor.Import

/-- The symbols whose keys no symbol before them has. -/
def firsts (symbols : List Symbol) : List Symbol :=
  symbols.eraseDupsBy fun s t => s.key == t.key

@[simp] theorem firsts_nil : firsts [] = [] := rfl

theorem firsts_cons (s : Symbol) (symbols : List Symbol) :
    firsts (s :: symbols) = s :: firsts (symbols.filter fun t => t.key ≠ s.key) := by
  rw [firsts, List.eraseDupsBy_cons]
  simp [firsts]

namespace SymbolList

theorem holds_append (l : SymbolList) (symbols : List Symbol) (t : Symbol) :
    (l.append symbols).holds t = true ↔ l.holds t = true ∨ t.key ∈ symbols.map Symbol.key := by
  induction symbols generalizing l with
  | nil => simp [append]
  | cons s symbols ih =>
    have step : l.append (s :: symbols) = (l.push s).append symbols := rfl
    rw [step, ih, holds_push, Bool.or_eq_true, beq_iff_eq, List.map_cons, List.mem_cons,
      eq_comm (a := s.key), or_comm (a := t.key = s.key), or_assoc]

theorem holds_ofList (symbols : List Symbol) (t : Symbol) :
    (ofList symbols).holds t = true ↔ t.key ∈ symbols.map Symbol.key := by
  rw [ofList, holds_append]
  simp [holds, empty]

/-- A list grows by the first symbol of each key that it does not hold. -/
theorem toList_append (l : SymbolList) (symbols : List Symbol) :
    (l.append symbols).toList = l.toList ++ firsts (symbols.filter fun s => !l.holds s) := by
  induction symbols generalizing l with
  | nil => simp [append]
  | cons s symbols ih =>
    have step : l.append (s :: symbols) = (l.push s).append symbols := rfl
    rw [step, ih, toList_push]
    cases listed : l.holds s with
    | true =>
      have same : l.push s = l := by rw [push, if_pos listed]
      rw [same, if_pos rfl, List.filter_cons_of_neg (by simp [listed])]
    | false =>
      have rest : symbols.filter (fun t => !(l.push s).holds t) =
          (symbols.filter fun t => !l.holds t).filter fun t => t.key ≠ s.key := by
        rw [List.filter_filter]
        apply List.filter_congr
        intro t _
        by_cases same : s.key = t.key
        · simp [holds_push, same]
        · simp [holds_push, same, Ne.symm same]
      rw [if_neg Bool.false_ne_true, List.filter_cons_of_pos (by simp [listed]), firsts_cons, rest,
        List.append_assoc, List.singleton_append]

theorem toList_ofList (symbols : List Symbol) : (ofList symbols).toList = firsts symbols := by
  have all : symbols.filter (fun s => !empty.holds s) = symbols := by simp [holds, empty]
  rw [ofList, toList_append, all, toList_empty, List.nil_append]

end SymbolList

theorem firsts_append (a b : List Symbol) :
    firsts (a ++ b) = firsts a ++ firsts (b.filter fun t => t.key ∉ a.map Symbol.key) := by
  have new : b.filter (fun t => !(SymbolList.ofList a).holds t) =
      b.filter fun t => t.key ∉ a.map Symbol.key := by
    apply List.filter_congr
    intro t _
    rw [Bool.eq_iff_iff, decide_eq_true_iff, ← SymbolList.holds_ofList, Bool.not_eq_true',
      Bool.not_eq_true]
  rw [← SymbolList.toList_ofList, SymbolList.ofList_append, SymbolList.toList_append,
    SymbolList.toList_ofList, new]

theorem firsts_mono {a b : List Symbol} (h : a <+: b) : firsts a <+: firsts b := by
  obtain ⟨more, rfl⟩ := h
  rw [firsts_append]
  exact List.prefix_append ..

theorem firsts_concat_of_mem {symbols : List Symbol} {s : Symbol}
    (known : s.key ∈ symbols.map Symbol.key) : firsts (symbols ++ [s]) = firsts symbols := by
  rw [firsts_append, List.filter_cons_of_neg (by simpa using known), List.filter_nil, firsts_nil,
    List.append_nil]

theorem firsts_concat_of_not_mem {symbols : List Symbol} {s : Symbol}
    (new : s.key ∉ symbols.map Symbol.key) : firsts (symbols ++ [s]) = firsts symbols ++ [s] := by
  rw [firsts_append, List.filter_cons_of_pos (by simpa using new), List.filter_nil, firsts_cons,
    List.filter_nil, firsts_nil]

theorem mem_of_mem_firsts {symbols : List Symbol} {s : Symbol} (h : s ∈ firsts symbols) :
    s ∈ symbols := by
  induction symbols using List.reverseRecOn with
  | nil => exact h
  | append_singleton symbols last ih =>
    by_cases known : last.key ∈ symbols.map Symbol.key
    · rw [firsts_concat_of_mem known] at h
      exact List.mem_append_left _ (ih h)
    · rw [firsts_concat_of_not_mem known] at h
      rcases List.mem_append.mp h with earlier | new
      · exact List.mem_append_left _ (ih earlier)
      · exact List.mem_append_right _ new

/-- The keys of the first symbols are those of all symbols. -/
theorem mem_keys_firsts {symbols : List Symbol} {key : String × String} :
    key ∈ (firsts symbols).map Symbol.key ↔ key ∈ symbols.map Symbol.key := by
  induction symbols using List.reverseRecOn with
  | nil => rfl
  | append_singleton symbols last ih =>
    by_cases known : last.key ∈ symbols.map Symbol.key
    · rw [firsts_concat_of_mem known, ih, List.map_append, List.mem_append]
      constructor
      · exact .inl
      · rintro (earlier | isLast)
        · exact earlier
        · rw [List.mem_singleton.mp isLast]
          exact known
    · rw [firsts_concat_of_not_mem known, List.map_append, List.map_append, List.mem_append,
        List.mem_append, ih]

/-- Which symbol is the first with a key does not depend on symbols with other keys. -/
theorem firsts_filter (p : String × String → Prop) [DecidablePred p] :
    ∀ symbols : List Symbol,
      firsts (symbols.filter fun s => p s.key) = (firsts symbols).filter fun s => p s.key
  | [] => rfl
  | s :: symbols => by
    have ih := firsts_filter p (symbols.filter fun t => t.key ≠ s.key)
    rw [List.filter_filter] at ih
    rw [firsts_cons]
    by_cases kept : p s.key
    · rw [List.filter_cons_of_pos (by simpa using kept),
        List.filter_cons_of_pos (by simpa using kept), firsts_cons, List.filter_filter, ← ih]
      simp only [Bool.and_comm]
    · have others : symbols.filter (fun t => p t.key && decide (t.key ≠ s.key)) =
          symbols.filter fun t => p t.key := by
        apply List.filter_congr
        intro t _
        by_cases same : t.key = s.key
        · simp [same, kept]
        · simp [same]
      rw [List.filter_cons_of_neg (by simpa using kept),
        List.filter_cons_of_neg (by simpa using kept), ← ih, others]
termination_by symbols => symbols.length
decreasing_by
  exact Nat.lt_succ_of_le (List.length_filter_le ..)

theorem mem_firsts_append {a b : List Symbol} {s : Symbol} :
    s ∈ firsts (a ++ b) ↔
      s ∈ firsts a ∨ s ∈ firsts b ∧ s.key ∉ a.map Symbol.key := by
  rw [firsts_append, firsts_filter (· ∉ a.map Symbol.key), List.mem_append, List.mem_filter,
    decide_eq_true_iff]

end WinFloor.Import

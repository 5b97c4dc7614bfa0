import Std.Data.HashMap
import WinFloor.Metadata.Native
import WinFloor.Proofs.Metadata.TableRows

/-!
Tables that refer to each other by number. Rows written from a list are listed in its order
(`filterMap_rows`) and found by number (`row?_rows`), and what a join collects under a number is
what the thing of that number gave (`filter_numbered`).
-/
namespace WinFloor.Metadata

/-! ## Rows written from a list -/

theorem Row.Shows.get {r : Row} {cells : List Nat} (h : r.Shows cells) (column : Nat) {value : Nat}
    (there : cells[column]? = some value) : (r.get column).toNat = value := by
  obtain ⟨inRow, same⟩ := List.getElem?_eq_some_iff.mp there
  rw [h column inRow, same]

namespace Tables.Gives

variable {t : Tables} {s : TableSet} {table : Table} {xs : List α} {row : Nat → α → List Nat}

theorem row?_rows (h : t.Gives s) (rows : s.rows table = xs.mapIdx row) {i : Nat}
    (inside : i < xs.length) : ∃ r, t.row? table (i + 1) = some r ∧ r.Shows (row i xs[i]) := by
  have counted : i < s.count table := by
    rw [TableSet.count, rows, List.length_mapIdx]
    exact inside
  obtain ⟨r, found, shows⟩ := h.row table i counted
  refine ⟨r, found, ?_⟩
  simpa only [List.get_eq_getElem, rows, List.getElem_mapIdx] using shows

theorem filterMap_rows (h : t.Gives s) (rows : s.rows table = xs.mapIdx row) {f : Row → Option β}
    {g : α → β} (each : ∀ r i, ∀ x ∈ xs, r.Shows (row i x) → f r = some (g x)) :
    ((t.rows table).filterMap fun numbered => f numbered.2) = xs.map g := by
  have shown := (h.rows table).2
  rw [rows] at shown
  generalize t.rows table = listed at shown
  clear rows
  induction xs generalizing row listed with
  | nil =>
    cases shown
    rfl
  | cons x xs ih =>
    rw [List.mapIdx_cons] at shown
    cases shown with
    | cons first rest =>
      have here := each _ 0 x List.mem_cons_self first
      have later := ih (fun r i x m => each r (i + 1) x (List.mem_cons_of_mem _ m)) _ rest
      simp only [List.filterMap_cons, here, later, List.map_cons]

end Tables.Gives

/-! ## What is collected under a number -/

/-- What each thing gives, with the number of the thing. -/
def numbered (give : α → List β) : (first : Nat) → List α → List (Nat × β)
  | _, [] => []
  | first, x :: xs => (give x).map (first, ·) ++ numbered give (first + 1) xs

theorem le_of_mem_numbered {give : α → List β} {first : Nat} {xs : List α} {p : Nat × β}
    (h : p ∈ numbered give first xs) : first ≤ p.1 := by
  induction xs generalizing first with
  | nil => cases h
  | cons x xs ih =>
    rcases List.mem_append.mp h with here | later
    · obtain ⟨b, -, rfl⟩ := List.mem_map.mp here
      exact Nat.le_refl first
    · have := ih later
      omega

theorem mem_numbered {give : α → List β} {first : Nat} {xs : List α} {p : Nat × β}
    (h : p ∈ numbered give first xs) :
    p.1 < first + xs.length ∧ p.2 ∈ xs.flatMap give := by
  induction xs generalizing first with
  | nil => cases h
  | cons x xs ih =>
    rw [List.length_cons, List.flatMap_cons, List.mem_append]
    rcases List.mem_append.mp h with here | later
    · obtain ⟨b, given, rfl⟩ := List.mem_map.mp here
      exact ⟨by simp only; omega, .inl given⟩
    · obtain ⟨below, given⟩ := ih later
      exact ⟨by omega, .inr given⟩

theorem filter_numbered (give : α → List β) (first : Nat) {xs : List α} {i : Nat}
    (inside : i < xs.length) :
    ((numbered give first xs).filter (·.1 = first + i)).map Prod.snd = give xs[i] := by
  induction xs generalizing first i with
  | nil => exact absurd inside (Nat.not_lt_zero _)
  | cons x xs ih =>
    rw [numbered, List.filter_append, List.map_append]
    cases i with
    | zero =>
      have rest : (numbered give (first + 1) xs).filter (·.1 = first + 0) = [] := by
        apply List.filter_eq_nil_iff.mpr
        intro p listed same
        have := le_of_mem_numbered listed
        simp only [decide_eq_true_eq] at same
        omega
      rw [rest]
      simp [List.filter_map, Function.comp_def]
    | succ i =>
      have here : ((give x).map (first, ·)).filter (·.1 = first + (i + 1)) = [] := by
        simp [List.filter_map, Function.comp_def]
      have later := ih (first + 1) (i := i) (by simpa using inside)
      rw [Nat.add_assoc, Nat.add_comm 1] at later
      rw [here, later]
      rfl

theorem getElem?_foldl_insert (pairs : List (Nat × β)) (m : Std.HashMap Nat β) (k : Nat) :
    (pairs.foldl (fun m p => m.insert p.1 p.2) m)[k]? =
      ((pairs.filter (·.1 = k)).map Prod.snd).getLast?.or m[k]? := by
  induction pairs generalizing m with
  | nil => rfl
  | cons p pairs ih =>
    rw [List.foldl_cons, ih, Std.HashMap.getElem?_insert]
    by_cases same : p.1 = k
    · simp only [same, List.filter_cons_of_pos, decide_true, List.map_cons, List.getLast?_cons,
        Option.some_or, beq_self_eq_true, ↓reduceIte]
      cases ((pairs.filter (·.1 = k)).map Prod.snd).getLast? <;> rfl
    · simp [same]

theorem getD_foldl_push (pairs : List (Nat × β)) (m : Std.HashMap Nat (Array β)) (k : Nat) :
    ((pairs.foldl (fun m p => m.alter p.1 fun known => some ((known.getD #[]).push p.2)) m).getD k
      #[]).toList = (m.getD k #[]).toList ++ (pairs.filter (·.1 = k)).map Prod.snd := by
  induction pairs generalizing m with
  | nil => simp
  | cons p pairs ih =>
    rw [List.foldl_cons, ih, Std.HashMap.getD_alter]
    by_cases same : p.1 = k
    · simp [same, Std.HashMap.getD_eq_getD_getElem?]
    · simp [same]

theorem getElem?_foldl_owner (methods : List Nat) (owner : Nat) (owners : Std.HashMap Nat Nat)
    (m : Nat) :
    (methods.foldl (fun owners m => owners.insert m owner) owners)[m]? =
      if m ∈ methods then some owner else owners[m]? := by
  induction methods generalizing owners with
  | nil => rfl
  | cons k methods ih =>
    rw [List.foldl_cons, ih, Std.HashMap.getElem?_insert]
    by_cases later : m ∈ methods
    · simp [later]
    · by_cases here : k = m
      · simp [here]
      · have apart : ¬ m = k := Ne.symm here
        simp [later, here, apart]

/-! ## The joins of a database -/

namespace Database

variable (db : Database)

/-- Rows that are no imports of methods leave no trace. -/
theorem importsByMethod_eq_foldl :
    db.importsByMethod =
      ((db.tables.rows .implMap).filterMap fun r => db.methodImport? r.2).foldl
        (fun imports p => imports.insert p.1 p.2) ∅ := by
  rw [List.foldl_filterMap, importsByMethod]
  congr 1
  funext imports ⟨number, row⟩
  dsimp only
  cases db.methodImport? row <;> rfl

theorem attributesByMethod_eq_foldl :
    db.attributesByMethod =
      ((db.tables.rows .customAttribute).filterMap fun r =>
        db.methodAttribute? db.methodOwners r.2).foldl
          (fun m p => m.alter p.1 fun known => some ((known.getD #[]).push p.2)) ∅ := by
  rw [List.foldl_filterMap, attributesByMethod]
  congr 1
  funext attributes ⟨number, row⟩
  dsimp only
  cases db.methodAttribute? db.methodOwners row <;> rfl

end Database

end WinFloor.Metadata

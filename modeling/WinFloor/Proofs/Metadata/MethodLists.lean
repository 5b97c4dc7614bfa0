import Mathlib.Data.List.Nodup
import WinFloor.Proofs.Metadata.Scan

/-!
The parts of the list of methods that types own, whatever their rows say. Each part is a run of
places of the list, from where the row of its type says to where the next row says
(`exists_run`). If no row starts before the one in front of it, the runs follow one another to the
end of the list (`flatten_methodsByType`), and where no table rearranges the list, each method from
the first start on has one owner (`exists_owner`).
-/
namespace WinFloor.Metadata

/-! ## Rows by number -/

theorem map_some_filterMap {f : α → Option β} {xs : List α} (all : ∀ x ∈ xs, (f x).isSome = true) :
    (xs.filterMap f).map some = xs.map f := by
  induction xs with
  | nil => rfl
  | cons x xs ih =>
    obtain ⟨y, given⟩ := Option.isSome_iff_exists.mp (all x List.mem_cons_self)
    rw [List.filterMap_cons_some given, List.map_cons, List.map_cons, given,
      ih fun x m => all x (List.mem_cons_of_mem _ m)]

theorem Tables.isSome_row? (t : Tables) (table : Table) (number : Nat) :
    (t.row? table number).isSome = true ↔ 1 ≤ number ∧ number ≤ t.rowCount table := by
  rw [row?, rowCount]
  cases t.extent? table with
  | none =>
    simp only [Option.map_none, Option.getD_none]
    constructor
    · intro some
      cases some
    · omega
  | some e =>
    simp only [Option.bind_eq_bind, Option.bind_some, Option.map_some, Option.getD_some]
    split
    next inside => exact ⟨fun _ => inside, fun _ => rfl⟩
    next outside =>
      constructor
      · intro some
        cases some
      · exact fun inside => absurd inside outside

/-! ## A list that may be rearranged -/

section
variable {t : Tables} {references : Table} {place : Nat}

theorem Tables.indirect_of_row {row : Row} (there : t.row? references place = some row) :
    t.indirect references place = (row.get 0).toNat := by
  have inside := (t.isSome_row? references place).mp (there ▸ rfl)
  rw [indirect, if_neg (by omega), there]
  rfl

theorem Tables.indirect_of_missing (some : t.rowCount references ≠ 0)
    (missing : t.row? references place = none) : t.indirect references place = 0 := by
  rw [indirect, if_neg some, missing]
  rfl

end

/-! ## Where the parts start -/

namespace Database

variable (db : Database)

/-- The place where the part of a type starts, by the row of the type. -/
def methodStart? (number : Nat) : Option Nat :=
  (db.tables.row? .typeDef number).map fun row => (row.get typeMethodList).toNat

def methodStarts : List Nat :=
  (db.tables.rows .typeDef).map fun (_, row) => (row.get typeMethodList).toNat

theorem map_some_methodStarts :
    db.methodStarts.map some =
      (List.range' 1 (db.tables.rowCount .typeDef)).map db.methodStart? := by
  have listed : db.methodStarts =
      (List.range' 1 (db.tables.rowCount .typeDef)).filterMap db.methodStart? := by
    rw [methodStarts, Tables.rows, List.map_filterMap]
    congr 1
    funext n
    rw [Option.map_map]
    rfl
  rw [listed]
  apply map_some_filterMap
  intro n inside
  have := List.mem_range'_1.mp inside
  rw [methodStart?, Option.isSome_map, Tables.isSome_row?]
  omega

theorem length_methodStarts : db.methodStarts.length = db.tables.rowCount .typeDef := by
  have same := congrArg List.length db.map_some_methodStarts
  simpa using same

theorem getElem?_methodStarts (i : Nat) : db.methodStarts[i]? = db.methodStart? (i + 1) := by
  have same := congrArg (·[i]?) db.map_some_methodStarts
  simp only [List.getElem?_map] at same
  by_cases inside : i < db.tables.rowCount .typeDef
  · have there : i < db.methodStarts.length := db.length_methodStarts ▸ inside
    rw [List.getElem?_eq_getElem there, List.getElem?_range' inside, Option.map_some,
      Option.map_some, Nat.one_mul, Nat.add_comm 1, Option.some.injEq] at same
    rw [List.getElem?_eq_getElem there, same]
  · have past : db.methodStart? (i + 1) = none := by
      rw [methodStart?, Option.map_eq_none_iff, ← Option.not_isSome_iff_eq_none, Tables.isSome_row?]
      omega
    rw [past]
    exact List.getElem?_eq_none (by rw [db.length_methodStarts]; omega)

/-! ## One part -/

/-- What the list has at so many places. -/
def placed (first count : Nat) : List Nat :=
  ((List.range' first count).map (db.tables.indirect .methodPtr)).filter (· ≠ 0)

theorem placed_append (first m n : Nat) :
    db.placed first m ++ db.placed (first + m) n = db.placed first (m + n) := by
  rw [placed, placed, placed, ← List.filter_append, ← List.map_append, List.range'_append_1]

theorem placed_zero (first : Nat) : db.placed first 0 = [] := rfl

theorem methodsBetween_eq (first stop : Nat) :
    db.methodsBetween first stop = db.placed (max first 1) (stop - max first 1) := rfl

/-- Where the parts end whose starts are given. -/
def stops (starts : List Nat) (stop : Nat) : List Nat := (starts.drop 1).map (min · stop) ++ [stop]

theorem getElem?_stops (stop : Nat) {starts : List Nat} {i : Nat} (inside : i < starts.length) :
    (stops starts stop)[i]? = some (starts[i + 1]?.elim stop (min · stop)) := by
  have size : ((starts.drop 1).map (min · stop)).length = starts.length - 1 := by simp
  rw [stops]
  by_cases last : i + 1 < starts.length
  · rw [List.getElem?_append_left (by omega), List.getElem?_map, List.getElem?_drop,
      Nat.add_comm 1, List.getElem?_eq_getElem last]
    rfl
  · rw [List.getElem?_append_right (by omega), List.getElem?_eq_none (Nat.not_lt.mp last), size,
      show i - (starts.length - 1) = 0 by omega]
    rfl

theorem methodsByType_eq_zipWith :
    db.methodsByType =
      db.methodStarts.zipWith db.methodsBetween (stops db.methodStarts (db.methodListSize + 1)) :=
  rfl

theorem length_methodsByType : db.methodsByType.length = db.tables.rowCount .typeDef := by
  rw [← db.length_methodStarts, methodsByType_eq_zipWith, List.length_zipWith, stops,
    List.length_append, List.length_map, List.length_drop, List.length_singleton]
  omega

/-- Where the part of a type stops: where the next type's part starts, or behind the list. -/
def partStop (i : Nat) : Nat :=
  (db.methodStart? (i + 2)).elim (db.methodListSize + 1) (min · (db.methodListSize + 1))

theorem lt_partStop_iff (i p : Nat) :
    p < db.partStop i ↔
      p ≤ db.methodListSize ∧ ∀ next, db.methodStart? (i + 2) = some next → p < next := by
  rw [partStop]
  cases db.methodStart? (i + 2) with
  | none =>
    simp only [Option.elim_none]
    constructor
    · intro inside
      exact ⟨by omega, fun next given => by cases given⟩
    · omega
  | some stop =>
    simp only [Option.elim_some, Option.some.injEq, forall_eq']
    omega

theorem getElem?_methodsByType {i start : Nat} (starts : db.methodStart? (i + 1) = some start) :
    db.methodsByType[i]? = some (db.methodsBetween start (db.partStop i)) := by
  rw [← getElem?_methodStarts] at starts
  obtain ⟨inside, -⟩ := List.getElem?_eq_some_iff.mp starts
  rw [methodsByType_eq_zipWith, List.getElem?_zipWith, starts, getElem?_stops _ inside,
    getElem?_methodStarts, ← partStop]

/-- The part of a type is a run of places: those of the list that lie from its start on and in front
of the next one's. -/
theorem exists_run {i start : Nat} (starts : db.methodStart? (i + 1) = some start) :
    ∃ first count, 1 ≤ first ∧ first + count ≤ db.methodListSize + 1 ∧
      (∀ p, first ≤ p ∧ p < first + count ↔ 1 ≤ p ∧ p ≤ db.methodListSize ∧ start ≤ p ∧
        ∀ next, db.methodStart? (i + 2) = some next → p < next) ∧
      db.methodsByType[i]? = some (db.placed first count) := by
  have ends := db.lt_partStop_iff i
  have most : db.partStop i ≤ db.methodListSize + 1 := by
    have := ends (db.methodListSize + 1)
    omega
  have places (p : Nat) : (1 ≤ p ∧ p ≤ db.methodListSize ∧ start ≤ p ∧
      ∀ next, db.methodStart? (i + 2) = some next → p < next) ↔
        max start 1 ≤ p ∧ p < db.partStop i := by
    rw [ends, Nat.max_le]
    constructor
    · rintro ⟨positive, inside, after, before⟩
      exact ⟨⟨after, positive⟩, inside, before⟩
    · rintro ⟨⟨after, positive⟩, inside, before⟩
      exact ⟨positive, inside, after, before⟩
  rw [getElem?_methodsByType db starts, methodsBetween_eq]
  simp only [places]
  by_cases empty : db.partStop i ≤ max start 1
  -- An empty part may start anywhere, so the first place of the list will do.
  · refine ⟨1, 0, Nat.le_refl 1, by omega, fun p => by omega, ?_⟩
    rw [Nat.sub_eq_zero_of_le empty]
    rfl
  · exact ⟨max start 1, db.partStop i - max start 1, by omega, by omega, fun p => by omega, rfl⟩

/-! ## All parts -/

theorem methodsBetween_append {s t : Nat} (ordered : s ≤ t) (stop : Nat) :
    db.methodsBetween s (min t stop) ++ db.methodsBetween t stop = db.methodsBetween s stop := by
  rw [methodsBetween_eq, methodsBetween_eq, methodsBetween_eq]
  -- Starts in front of the list and behind it give empty parts.
  by_cases past : stop ≤ max t 1
  · have nothing : stop - max t 1 = 0 := by omega
    have same : min t stop - max s 1 = stop - max s 1 := by omega
    rw [nothing, same, placed_zero, List.append_nil]
  · have joint : max s 1 + (min t stop - max s 1) = max t 1 := by omega
    have total : min t stop - max s 1 + (stop - max t 1) = stop - max s 1 := by omega
    rw [← joint, placed_append, joint, total]

/-- The parts of a list end where the next ones start, so together they are one part. -/
theorem flatten_parts {first : Nat} {starts : List Nat}
    (sorted : (first :: starts).Pairwise (· ≤ ·)) (stop : Nat) :
    ((first :: starts).zipWith db.methodsBetween (stops (first :: starts) stop)).flatten =
      db.methodsBetween first stop := by
  induction starts generalizing first with
  | nil => exact List.append_nil _
  | cons next starts ih =>
    obtain ⟨least, rest⟩ := List.pairwise_cons.mp sorted
    rw [← db.methodsBetween_append (least next List.mem_cons_self) stop, ← ih rest]
    rfl

/-- No type starts before the one in front of it. -/
def StartsInOrder : Prop :=
  ∀ n s t, db.methodStart? n = some s → db.methodStart? (n + 1) = some t → s ≤ t

variable {db}

theorem startsInOrder_iff : db.StartsInOrder ↔ db.methodStarts.Pairwise (· ≤ ·) := by
  rw [← List.isChain_iff_pairwise, List.isChain_iff_getElem]
  constructor
  · intro ordered i inside
    apply ordered (i + 1)
    · rw [← getElem?_methodStarts, List.getElem?_eq_getElem]
    · rw [← getElem?_methodStarts, List.getElem?_eq_getElem]
  · intro sorted n s t here next
    -- There is no row of number zero.
    cases n with
    | zero =>
      obtain ⟨row, there, -⟩ := Option.map_eq_some_iff.mp here
      have inside := (db.tables.isSome_row? .typeDef 0).mp (there ▸ rfl)
      omega
    | succ i =>
      rw [← getElem?_methodStarts] at here next
      obtain ⟨-, rfl⟩ := List.getElem?_eq_some_iff.mp here
      obtain ⟨inside, rfl⟩ := List.getElem?_eq_some_iff.mp next
      exact sorted i inside

theorem flatten_methodsByType (ordered : db.StartsInOrder) {first : Nat}
    (starts : db.methodStart? 1 = some first) :
    db.methodsByType.flatten =
      db.placed (max 1 first) (db.methodListSize + 1 - max 1 first) := by
  rw [← getElem?_methodStarts] at starts
  have sorted := startsInOrder_iff.mp ordered
  rw [methodsByType_eq_zipWith]
  cases listed : db.methodStarts with
  | nil =>
    rw [listed] at starts
    cases starts
  | cons s rest =>
    rw [listed] at starts sorted
    cases starts
    rw [flatten_parts db sorted, methodsBetween_eq, Nat.max_comm]

/-! ## Owners -/

/-- Where nothing rearranges the list, it has the methods in order. -/
theorem placed_direct (direct : db.tables.rowCount .methodPtr = 0) {first : Nat}
    (positive : 1 ≤ first) (count : Nat) : db.placed first count = List.range' first count := by
  have same : db.tables.indirect .methodPtr = id := funext (Tables.indirect_of_no_rows direct)
  rw [placed, same, List.map_id]
  apply List.filter_eq_self.mpr
  intro p listed
  have := (List.mem_range'_1.mp listed).1
  exact decide_eq_true (by omega)

theorem eq_of_mem_of_nodup {xss : List (List α)} (nodup : xss.flatten.Nodup) {i j : Nat}
    {xs ys : List α} {x : α} (here : xss[i]? = some xs) (there : xss[j]? = some ys) (left : x ∈ xs)
    (right : x ∈ ys) : i = j := by
  obtain ⟨insideI, rfl⟩ := List.getElem?_eq_some_iff.mp here
  obtain ⟨insideJ, rfl⟩ := List.getElem?_eq_some_iff.mp there
  have apart := List.pairwise_iff_getElem.mp (List.nodup_flatten.mp nodup).2
  rcases Nat.lt_trichotomy i j with before | same | behind
  · exact absurd right (apart i j insideI insideJ before left)
  · exact same
  · exact absurd left (apart j i insideJ insideI behind right)

/-- A method that only one type lists belongs to it. -/
theorem owner?_eq_some {i m : Nat} {methods : List Nat}
    (listed : db.methodsByType[i]? = some methods) (member : m ∈ methods)
    (only : ∀ j others, db.methodsByType[j]? = some others → m ∈ others → j = i) :
    db.owner? m = some (i + 1) := by
  have numbered : (methods, i + 1) ∈ (db.methodsByType.zipIdx 1).filter (m ∈ ·.1) := by
    refine List.mem_filter.mpr ⟨?_, decide_eq_true member⟩
    exact List.mem_zipIdx_iff_le_and_getElem?_sub.mpr ⟨Nat.le_add_left 1 i, listed⟩
  rw [owner?]
  cases last : ((db.methodsByType.zipIdx 1).filter (m ∈ ·.1)).getLast? with
  | none =>
    rw [List.getLast?_eq_none_iff.mp last] at numbered
    cases numbered
  | some p =>
    -- Whichever type is the last to list the method, it is the one that does.
    obtain ⟨inside, has⟩ := List.mem_filter.mp (List.mem_of_getLast? last)
    obtain ⟨positive, there⟩ := List.mem_zipIdx_iff_le_and_getElem?_sub.mp inside
    have same := only _ _ there (of_decide_eq_true has)
    rw [Option.map_some, Option.some.injEq]
    omega

/-- A constructor that is a method belongs to the type that owns the method. -/
theorem constructorType?_of_owner {m owner : Nat} (owned : db.owner? m = some owner)
    {constructor row : UInt32}
    (decoded : CodedIndex.customAttributeType.decode constructor = some (.methodDef, row))
    (isMethod : row.toNat = m) :
    db.constructorType? db.methodOwners constructor = db.typeName? .typeDef owner := by
  rw [constructorType?, decoded]
  simp only [Option.bind_eq_bind, Option.bind_some, isMethod, getElem?_methodOwners, owned]

theorem exists_owner (ordered : db.StartsInOrder) {first : Nat}
    (starts : db.methodStart? 1 = some first) (direct : db.tables.rowCount .methodPtr = 0) {m : Nat}
    (after : max 1 first ≤ m) (inside : m ≤ db.methodListSize) :
    ∃ i methods, db.methodsByType[i]? = some methods ∧ m ∈ methods ∧
      (∀ j others, db.methodsByType[j]? = some others → m ∈ others → j = i) ∧
      db.owner? m = some (i + 1) := by
  have all := flatten_methodsByType ordered starts
  rw [placed_direct direct (Nat.le_max_left 1 first)] at all
  have nodup : db.methodsByType.flatten.Nodup := all ▸ List.nodup_range'
  have listed : m ∈ db.methodsByType.flatten := by
    rw [all, List.mem_range'_1]
    omega
  obtain ⟨methods, isPart, member⟩ := List.mem_flatten.mp listed
  obtain ⟨i, there⟩ := List.mem_iff_getElem?.mp isPart
  have only : ∀ j others, db.methodsByType[j]? = some others → m ∈ others → j = i :=
    fun j others other shared => eq_of_mem_of_nodup nodup other there shared member
  exact ⟨i, methods, there, member, only, owner?_eq_some there member only⟩

theorem methodListSize_eq :
    db.methodListSize =
      if db.tables.rowCount .methodPtr = 0 then db.tables.rowCount .methodDef
      else db.tables.rowCount .methodPtr := by
  rw [methodListSize]
  cases db.tables.rowCount .methodPtr <;> rfl

variable (db)

/-- Each type has what the list holds at a run of its places, from where the row of the type says to
where the next row says, as far as these are places of the list. What the list holds at a place is
the place itself, or what the row of that number says in a table that rearranges the list. If the
rows say no place in front of the one before, the types have between them what the list holds from
the first start to its end.
Where no table rearranges the list, each method from there on has exactly one owner, to which it
also belongs as a constructor. -/
theorem methodsByType_runs :
    (db.methodListSize =
      if db.tables.rowCount .methodPtr = 0 then db.tables.rowCount .methodDef
      else db.tables.rowCount .methodPtr) ∧
    ((db.tables.rowCount .methodPtr = 0 →
        ∀ place, db.tables.indirect .methodPtr place = place) ∧
      (∀ place row, db.tables.row? .methodPtr place = some row →
        db.tables.indirect .methodPtr place = (row.get 0).toNat) ∧
      (db.tables.rowCount .methodPtr ≠ 0 → ∀ place, db.tables.row? .methodPtr place = none →
        db.tables.indirect .methodPtr place = 0)) ∧
    db.methodsByType.length = db.tables.rowCount .typeDef ∧
    (∀ i < db.tables.rowCount .typeDef, ∃ start first count,
      db.methodStart? (i + 1) = some start ∧ 1 ≤ first ∧ first + count ≤ db.methodListSize + 1 ∧
      (∀ p, first ≤ p ∧ p < first + count ↔ 1 ≤ p ∧ p ≤ db.methodListSize ∧ start ≤ p ∧
        ∀ next, db.methodStart? (i + 2) = some next → p < next) ∧
      db.methodsByType[i]? =
        some (((List.range' first count).map (db.tables.indirect .methodPtr)).filter (· ≠ 0))) ∧
    (db.StartsInOrder → ∀ first, db.methodStart? 1 = some first →
      db.methodsByType.flatten =
        ((List.range' (max 1 first) (db.methodListSize + 1 - max 1 first)).map
          (db.tables.indirect .methodPtr)).filter (· ≠ 0) ∧
      (db.tables.rowCount .methodPtr = 0 →
        ∀ m, max 1 first ≤ m → m ≤ db.tables.rowCount .methodDef →
          ∃ i methods, db.methodsByType[i]? = some methods ∧ m ∈ methods ∧
            (∀ j others, db.methodsByType[j]? = some others → m ∈ others → j = i) ∧
            db.methodOwners[m]? = some (i + 1) ∧
            ∀ constructor row,
              CodedIndex.customAttributeType.decode constructor = some (.methodDef, row) →
              row.toNat = m →
              db.constructorType? db.methodOwners constructor =
                db.typeName? .typeDef (i + 1))) := by
  refine ⟨methodListSize_eq, ⟨Tables.indirect_of_no_rows, fun _ _ => Tables.indirect_of_row,
    fun some _ => Tables.indirect_of_missing some⟩, db.length_methodsByType, ?_, ?_⟩
  · intro i inside
    have row := (db.tables.isSome_row? .typeDef (i + 1)).mpr ⟨by omega, inside⟩
    obtain ⟨start, starts⟩ : ∃ start, db.methodStart? (i + 1) = some start := by
      rw [methodStart?, ← Option.isSome_iff_exists, Option.isSome_map]
      exact row
    obtain ⟨first, count, run⟩ := db.exists_run starts
    exact ⟨start, first, count, starts, run⟩
  · intro ordered first starts
    refine ⟨flatten_methodsByType ordered starts, ?_⟩
    intro direct m after inside
    have size : db.methodListSize = db.tables.rowCount .methodDef := by
      rw [methodListSize_eq, if_pos direct]
    obtain ⟨i, methods, listed, member, only, owned⟩ :=
      exists_owner ordered starts direct after (size ▸ inside)
    refine ⟨i, methods, listed, member, only, ?_, ?_⟩
    · rw [getElem?_methodOwners, owned]
    · intro constructor row decoded isMethod
      exact constructorType?_of_owner owned decoded isMethod

/-- The row of a type whose methods start at a place. -/
def typeRow (start : Nat) : List UInt8 := List.replicate 12 0 ++ toLittleEndian 2 start

/-- Three types and three methods. The last type starts behind the list. -/
def threeTypes : Database where
  version := ""
  tables :=
    { data := (typeRow 0 ++ typeRow 2 ++ typeRow 9 ++ List.replicate 42 0).toArray
      extents := [⟨.typeDef, 0, 3, [4, 2, 2, 2, 2, 2]⟩, ⟨.methodDef, 42, 3, [4, 2, 2, 2, 2, 2]⟩] }
  strings := ⟨#[]⟩
  blobs := ⟨#[]⟩

/-- Three types, and a table that rearranges the list of methods: of its four places the second
holds none, and the last a method that there is not. -/
def rearrangedTypes : Database where
  version := ""
  tables :=
    { data := (typeRow 1 ++ typeRow 3 ++ typeRow 4 ++ [3, 0, 0, 0, 1, 0, 9, 0]).toArray
      extents := [⟨.typeDef, 0, 3, [4, 2, 2, 2, 2, 2]⟩, ⟨.methodPtr, 42, 4, [2]⟩] }
  strings := ⟨#[]⟩
  blobs := ⟨#[]⟩

theorem methodsByType_runs_threeTypes :
    (threeTypes.StartsInOrder ∧ threeTypes.methodStart? 1 = some 0 ∧
      threeTypes.methodsByType.flatten = [1, 2, 3] ∧
      ∃ i methods, threeTypes.methodsByType[i]? = some methods ∧ 3 ∈ methods ∧
        threeTypes.methodOwners[3]? = some (i + 1)) ∧
    rearrangedTypes.StartsInOrder ∧ rearrangedTypes.methodStart? 1 = some 1 ∧
      rearrangedTypes.methodListSize = 4 ∧ rearrangedTypes.methodsByType.flatten = [3, 1, 9] ∧
      rearrangedTypes.tables.indirect .methodPtr 5 = 0 := by
  constructor
  · have first : threeTypes.methodStart? 1 = some 0 := by decide +kernel
    have ordered : threeTypes.StartsInOrder := startsInOrder_iff.mpr (by decide +kernel)
    obtain ⟨-, -, -, -, parts⟩ := methodsByType_runs threeTypes
    obtain ⟨all, owned⟩ := parts ordered 0 first
    obtain ⟨i, methods, listed, member, -, owner, -⟩ :=
      owned (by decide +kernel) 3 (by decide) (by decide +kernel)
    exact ⟨ordered, first, all.trans (by decide +kernel), i, methods, listed, member, owner⟩
  · have first : rearrangedTypes.methodStart? 1 = some 1 := by decide +kernel
    have ordered : rearrangedTypes.StartsInOrder := startsInOrder_iff.mpr (by decide +kernel)
    obtain ⟨size, ⟨-, -, missing⟩, -, -, parts⟩ := methodsByType_runs rearrangedTypes
    exact ⟨ordered, first, size.trans (by decide +kernel),
      (parts ordered 1 first).1.trans (by decide +kernel),
      missing (by decide +kernel) 5 (Option.not_isSome_iff_eq_none.mp (by decide +kernel))⟩

end Database

end WinFloor.Metadata

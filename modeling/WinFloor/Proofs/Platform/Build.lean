import Mathlib.Data.List.Basic
import WinFloor.Platform

/-!
The build of a platform text with a version in it, `windows10.0.19041` say. The version is the first
run of digits with all segments that follow it (`version_text`). A segment that is no 32-bit number
does not count (`filterMap_number?`), and then the build is the largest segment that is one itself,
or the first build of the version that the first two segments write (`build_text`). Since a segment
that does not count is left out before the first two are taken, those behind it take its place
(`build_of_overlong`).
-/
namespace WinFloor.Platform

open Text

/-! ## Where a version ends -/

/-- The text does not go on with the version before it: it starts neither with a digit nor with a
point and a digit. -/
structure Ends (text : List Char) : Prop where
  digit : ∀ c rest, text = c :: rest → isDecimal c = false
  point : ∀ c rest, text = '.' :: c :: rest → isDecimal c = false

/-- One number of a version, in the digits of any script. -/
def IsSegment (s : List Char) : Prop := s ≠ [] ∧ ∀ c ∈ s, isDecimal c = true

theorem ne_point_of_isDecimal {c : Char} (h : isDecimal c = true) : c ≠ '.' := by
  rintro rfl
  exact absurd h (by decide)

theorem segments_digit {c : Char} (h : isDecimal c = true) (segment rest : List Char) :
    segments segment (c :: rest) = segments (c :: segment) rest := by
  have noPoint := ne_point_of_isDecimal h
  cases rest with
  | nil => simp [segments, h]
  | cons next rest => simp [segments, h, noPoint]

theorem segments_point {c : Char} (h : isDecimal c = true) (segment rest : List Char) :
    segments segment ('.' :: c :: rest) = segment.reverse :: segments [c] rest :=
  if_pos h

theorem segments_end {text : List Char} (h : Ends text) (segment : List Char) :
    segments segment text = [segment.reverse] := by
  cases text with
  | nil => rfl
  | cons c rest =>
    have noDigit := h.digit c rest rfl
    by_cases isPoint : c = '.'
    · subst isPoint
      cases rest with
      | nil => simp [segments, noDigit]
      | cons next rest => simp [segments, h.point next rest rfl]
    · cases rest with
      | nil => simp [segments, noDigit]
      | cons next rest => simp [segments, noDigit, isPoint]

theorem segments_append {digits : List Char} (h : ∀ c ∈ digits, isDecimal c = true)
    (segment rest : List Char) :
    segments segment (digits ++ rest) = segments (digits.reverse ++ segment) rest := by
  induction digits generalizing segment with
  | nil => rfl
  | cons c digits ih =>
    rw [List.cons_append, segments_digit (h c List.mem_cons_self),
      ih fun c m => h c (List.mem_cons_of_mem _ m), List.reverse_cons, List.append_assoc]
    rfl

theorem joined_cons (c : Char) (rest : List Char) (more : List (List Char)) :
    ['.'].intercalate ((c :: rest) :: more) = c :: ['.'].intercalate (rest :: more) := by
  cases more <;> simp [List.intercalate]

/-- The first segment may have been read in part. -/
theorem segments_joined {digits behind : List Char} {more : List (List Char)}
    (first : ∀ c ∈ digits, isDecimal c = true) (others : ∀ s ∈ more, IsSegment s)
    (ends : Ends behind) (segment : List Char) :
    segments segment (['.'].intercalate (digits :: more) ++ behind) =
      (segment.reverse ++ digits) :: more := by
  induction more generalizing digits segment with
  | nil =>
    rw [List.intercalate_singleton, segments_append first, segments_end ends]
    simp
  | cons s more ih =>
    -- The point is read with the first digit behind it, which then stands in front of the rest.
    obtain ⟨some, decimal⟩ := others s List.mem_cons_self
    obtain ⟨c, rest, rfl⟩ := List.exists_cons_of_ne_nil some
    have joined : ['.'].intercalate (digits :: (c :: rest) :: more) ++ behind =
        digits ++ '.' :: c :: (['.'].intercalate (rest :: more) ++ behind) := by
      rw [List.intercalate_cons_cons, joined_cons]
      simp
    rw [joined, segments_append first, segments_point (decimal c List.mem_cons_self),
      ih (fun c m => decimal c (List.mem_cons_of_mem _ m))
        (fun s m => others s (List.mem_cons_of_mem _ m))]
    simp

theorem version_text {front behind : List Char} {segs : List (List Char)}
    (before : ∀ c ∈ front, isDecimal c = false) (some : segs ≠ [])
    (written : ∀ s ∈ segs, IsSegment s) (ends : Ends behind) :
    version (front ++ (['.'].intercalate segs ++ behind)) = segs := by
  obtain ⟨s, more, rfl⟩ := List.exists_cons_of_ne_nil some
  obtain ⟨digit, decimal⟩ := written s List.mem_cons_self
  obtain ⟨c, rest, rfl⟩ := List.exists_cons_of_ne_nil digit
  have skipped : (front ++ c :: (['.'].intercalate (rest :: more) ++ behind)).dropWhile
      (fun c => !isDecimal c) = c :: (['.'].intercalate (rest :: more) ++ behind) := by
    rw [List.dropWhile_append_of_pos (by simpa using before)]
    simp [decimal c List.mem_cons_self]
  rw [joined_cons, List.cons_append, version, skipped]
  exact segments_joined (fun c m => decimal c (List.mem_cons_of_mem _ m))
    (fun s m => written s (List.mem_cons_of_mem _ m)) ends [c]

/-! ## Numbers -/

/-- The number that a segment writes, of any size. -/
def value (s : List Char) : Nat := Nat.ofDigitChars 10 s 0

theorem le_ofDigitChars (digits : List Char) (n : Nat) : n ≤ Nat.ofDigitChars 10 digits n := by
  induction digits generalizing n with
  | nil => exact Nat.le_refl n
  | cons c digits ih =>
    have := ih (10 * n + (c.toNat - '0'.toNat))
    rw [Nat.ofDigitChars_cons]
    omega

/-- A number that has outgrown 32 bits stays outgrown. -/
theorem number?_eq {s : List Char} (digits : ∀ c ∈ s, c.isDigit = true) :
    number? s = if value s < UInt32.size then some (value s) else none := by
  rw [number?, value]
  -- The reading goes on only from numbers that fit, so this is what the induction carries along.
  generalize start : 0 = n
  have small : n < UInt32.size := by
    subst start
    decide
  clear start
  induction s generalizing n with
  | nil => exact (if_pos small).symm
  | cons c s ih =>
    have next : 10 * n + (c.toNat - '0'.toNat) = n * 10 + (c.toNat - '0'.toNat) := by omega
    have digit : c.isDigit = true := digits c List.mem_cons_self
    rw [List.foldlM_cons, Nat.ofDigitChars_cons, next]
    by_cases fits : n * 10 + (c.toNat - '0'.toNat) < UInt32.size
    · rw [if_pos ⟨digit, fits⟩]
      exact ih (fun c m => digits c (List.mem_cons_of_mem _ m)) _ fits
    · have outgrown := le_ofDigitChars s (n * 10 + (c.toNat - '0'.toNat))
      rw [if_neg (fun both => fits both.2), if_neg (by omega)]
      rfl

theorem filterMap_number? {segs : List (List Char)}
    (digits : ∀ s ∈ segs, ∀ c ∈ s, c.isDigit = true) :
    segs.filterMap number? = (segs.map value).filter (· < UInt32.size) := by
  rw [← List.filterMap_eq_filter, List.filterMap_map]
  apply List.filterMap_congr
  intro s listed
  rw [number?_eq (digits s listed), Function.comp_apply, Option.guard]
  simp only [decide_eq_true_eq]

/-! ## The build -/

/-- The first build of the version that the first two numbers make; a single one is a major version,
and its minor version is zero. -/
def leadingBuild (numbers : List Nat) : Nat :=
  numbers.head?.elim 0 fun major => buildOfVersion major (numbers[1]?.getD 0)

theorem buildOfSegments_of_build {numbers : List Nat} {build : Nat} (member : build ∈ numbers)
    (least : leastBuild ≤ build) (highest : ∀ n ∈ numbers, n ≤ build) :
    buildOfSegments numbers = build := by
  have found : (numbers.filter (leastBuild ≤ ·)).max? = some build := by
    apply List.max?_eq_some_iff.mpr
    exact ⟨List.mem_filter.mpr ⟨member, decide_eq_true least⟩,
      fun n listed => highest n (List.mem_filter.mp listed).1⟩
  rw [buildOfSegments.eq_def, found]

theorem buildOfSegments_of_small {numbers : List Nat} (small : ∀ n ∈ numbers, n < leastBuild) :
    buildOfSegments numbers = leadingBuild numbers := by
  have none : numbers.filter (leastBuild ≤ ·) = [] := by
    apply List.filter_eq_nil_iff.mpr
    intro n listed
    have := small n listed
    simpa using this
  rw [buildOfSegments.eq_def, none]
  rcases numbers with _ | ⟨major, _ | ⟨minor, rest⟩⟩ <;> rfl

theorem leadingBuild_filter {keep : Nat → Bool} {numbers : List Nat}
    (kept : ∀ n ∈ numbers.take 2, keep n = true) :
    leadingBuild (numbers.filter keep) = leadingBuild numbers := by
  rcases numbers with _ | ⟨major, _ | ⟨minor, rest⟩⟩
  · rfl
  · rw [List.filter_cons_of_pos (kept major (by simp))]
    rfl
  · rw [List.filter_cons_of_pos (kept major (by simp)),
      List.filter_cons_of_pos (kept minor (by simp))]
    rfl

theorem build_eq_buildOfSegments {front behind : String} {segs : List String}
    (before : front.toList.any isDecimal = false) (some : segs ≠ [])
    (digits : ∀ s ∈ segs, s ≠ "" ∧ s.toList.all Char.isDigit = true) (ends : Ends behind.toList) :
    build (front ++ ".".intercalate segs ++ behind) =
      buildOfSegments ((segs.map (value ·.toList)).filter (· < UInt32.size)) := by
  have ascii : ∀ s ∈ segs.map String.toList, ∀ c ∈ s, c.isDigit = true := by
    intro s listed
    obtain ⟨s, member, rfl⟩ := List.mem_map.mp listed
    exact List.all_eq_true.mp (digits s member).2
  have written : ∀ s ∈ segs.map String.toList, IsSegment s := by
    intro s listed
    refine ⟨?_, fun c m => isDecimal_of_isDigit (ascii s listed c m)⟩
    obtain ⟨s, member, rfl⟩ := List.mem_map.mp listed
    simpa using (digits s member).1
  have joined : (front ++ ".".intercalate segs ++ behind).toList =
      front.toList ++ (['.'].intercalate (segs.map String.toList) ++ behind.toList) := by
    simp [String.toList_intercalate]
  rw [build, joined, version_text (by simpa using before) (by simpa using some) written ends,
    filterMap_number? ascii, List.map_map]
  rfl

/-- A text with a version in it asks for the largest segment that is a 32-bit number and a build.
If there is none, it asks for the first build of the version which the first two of those segments
write that are 32-bit numbers, and these are its first two segments if both fit. -/
theorem build_text {front behind : String} {segs : List String}
    (before : front.toList.any isDecimal = false) (some : segs ≠ [])
    (digits : ∀ s ∈ segs, s ≠ "" ∧ s.toList.all Char.isDigit = true) (ends : Ends behind.toList) :
    let numbers := segs.map (value ·.toList)
    let asked := build (front ++ ".".intercalate segs ++ behind)
    (∀ b ∈ numbers, 10000 ≤ b → b < UInt32.size → (∀ n ∈ numbers, n < UInt32.size → n ≤ b) →
      asked = b) ∧
    ((∀ n ∈ numbers, n < UInt32.size → n < 10000) →
      asked = leadingBuild (numbers.filter (· < UInt32.size)) ∧
      ((∀ n ∈ numbers.take 2, n < UInt32.size) → asked = leadingBuild numbers)) := by
  intro numbers asked
  have parts : asked = buildOfSegments (numbers.filter (· < UInt32.size)) :=
    build_eq_buildOfSegments before some digits ends
  constructor
  · intro b member least fits highest
    rw [parts]
    apply buildOfSegments_of_build (List.mem_filter.mpr ⟨member, decide_eq_true fits⟩) least
    intro n kept
    obtain ⟨listed, small⟩ := List.mem_filter.mp kept
    exact highest n listed (of_decide_eq_true small)
  · intro none
    have leading : asked = leadingBuild (numbers.filter (· < UInt32.size)) := by
      rw [parts]
      apply buildOfSegments_of_small
      intro n kept
      obtain ⟨listed, small⟩ := List.mem_filter.mp kept
      exact none n listed (of_decide_eq_true small)
    refine ⟨leading, fun fit => leading.trans (leadingBuild_filter ?_)⟩
    intro n first
    exact decide_eq_true (fit n first)

theorem build_text_laterBuild :
    "windows ".toList.any isDecimal = false ∧ Ends ". or later".toList ∧
    build ("windows " ++ ".".intercalate ["10", "0", "019041", "4294967296"] ++ ". or later") =
      19041 := by
  have before : "windows ".toList.any isDecimal = false := by decide +kernel
  have ends : Ends ". or later".toList := by
    constructor
    · rintro c rest ⟨⟩
      decide +kernel
    · rintro c rest ⟨⟩
      decide +kernel
  exact ⟨before, ends, (build_text before (by decide) (by decide +kernel) ends).1 19041
    (by decide +kernel) (by decide) (by decide) (by decide +kernel)⟩

/-- A first segment that is no 32-bit number does not make the build unknown. -/
theorem build_of_overlong :
    ¬ ∀ (front behind : String) (segs : List String),
      front.toList.any isDecimal = false → segs ≠ [] →
      (∀ s ∈ segs, s ≠ "" ∧ s.toList.all Char.isDigit = true) → Ends behind.toList →
      (∀ n ∈ segs.map (value ·.toList), n < UInt32.size → n < 10000) →
      (∃ n ∈ (segs.map (value ·.toList)).take 2, UInt32.size ≤ n) →
      build (front ++ ".".intercalate segs ++ behind) = 0 := by
  intro unknown
  have ends : Ends "".toList := by constructor <;> rintro c rest ⟨⟩
  have zero := unknown "windows" "" ["99999999999999", "6", "1"] (by decide +kernel) (by decide)
    (by decide +kernel) ends (by decide +kernel) (by decide +kernel)
  exact absurd zero (by decide +kernel)

end WinFloor.Platform

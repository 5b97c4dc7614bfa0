import WinFloor.Text.Utf8

/-!
The octets that write a text in UTF-8, and that both ways of reading give the text back.
-/
namespace WinFloor.Text.Utf8

/-- The octets of a text. -/
def encode (s : String) : List UInt8 := s.toList.flatMap String.utf8EncodeChar

/-- An octet that continues a character, with six bits of it. -/
def tail (value : Nat) : UInt8 := UInt8.ofNat (value % 0x40 + 0x80)

theorem toNat_tail (value : Nat) : (tail value).toNat = value % 0x40 + 0x80 := by
  rw [tail, UInt8.toNat_ofNat']
  omega

theorem continuation_tail {owed : Nat} {low high : UInt8} (value more : Nat) (rest : List UInt8)
    (least : low.toNat ≤ more % 0x40 + 0x80) (most : more % 0x40 + 0x80 ≤ high.toNat) :
    continuation (owed + 1) low high value (tail more :: rest) =
      continuation owed 0x80 0xbf (value * 64 + more % 64) rest := by
  have bits := toNat_tail more
  have same : (tail more).toNat % 64 = more % 64 := by omega
  have range : (decide (low ≤ tail more) && decide (tail more ≤ high)) = true := by
    simp [UInt8.le_iff_toNat_le, bits, least, most]
  simp [continuation, range, same]

/-- All continuation octets are allowed behind the second. -/
theorem continuation_any (owed value more : Nat) (rest : List UInt8) :
    continuation (owed + 1) 0x80 0xbf value (tail more :: rest) =
      continuation owed 0x80 0xbf (value * 64 + more % 64) rest := by
  apply continuation_tail
  · simp only [UInt8.reduceToNat]
    omega
  · simp only [UInt8.reduceToNat]
    omega

theorem continuation_done {low high : UInt8} {value v : Nat} (h : value = v) (rest : List UInt8) :
    continuation 0 low high value rest = ⟨some (Char.ofNat v), rest⟩ := by
  rw [h]
  rfl

theorem take_one {v : Nat} (h : v ≤ 0x7f) (rest : List UInt8) :
    take (UInt8.ofNat v) rest = ⟨some (Char.ofNat v), rest⟩ := by
  have lead : (UInt8.ofNat v).toNat = v := by
    rw [UInt8.toNat_ofNat']
    omega
  simp only [take, UInt8.lt_iff_toNat_lt, lead, UInt8.reduceToNat]
  rw [if_pos (by omega)]

theorem take_two {v : Nat} (low : 0x7f < v) (high : v ≤ 0x7ff) (rest : List UInt8) :
    take (UInt8.ofNat (v / 64 % 0x20 + 0xc0)) (tail v :: rest) = ⟨some (Char.ofNat v), rest⟩ := by
  have lead : (UInt8.ofNat (v / 64 % 0x20 + 0xc0)).toNat = v / 64 + 0xc0 := by
    rw [UInt8.toNat_ofNat']
    omega
  generalize UInt8.ofNat (v / 64 % 0x20 + 0xc0) = b at lead
  simp only [take, UInt8.lt_iff_toNat_lt, lead, UInt8.reduceToNat]
  rw [if_neg (by omega), if_neg (by omega), if_pos (by omega), continuation_any]
  exact continuation_done (by omega) rest

/-- The second octet of a character of three or four has a range of its own where the first leaves
room for too much. -/
theorem take_three {v : Nat} (low : 0x7ff < v) (high : v ≤ 0xffff)
    (scalar : v < 0xd800 ∨ 0xdfff < v) (rest : List UInt8) :
    take (UInt8.ofNat (v / 4096 % 0x10 + 0xe0)) (tail (v / 64) :: tail v :: rest) =
      ⟨some (Char.ofNat v), rest⟩ := by
  have lead : (UInt8.ofNat (v / 4096 % 0x10 + 0xe0)).toNat = v / 4096 + 0xe0 := by
    rw [UInt8.toNat_ofNat']
    omega
  generalize UInt8.ofNat (v / 4096 % 0x10 + 0xe0) = b at lead
  simp only [take, UInt8.lt_iff_toNat_lt, beq_iff_eq, ← UInt8.toNat_inj, lead, UInt8.reduceToNat]
  rw [if_neg (by omega), if_neg (by omega), if_neg (by omega)]
  split
  next least =>
    rw [continuation_tail _ _ _ (by simp; omega) (by simp; omega), continuation_any]
    exact continuation_done (by omega) rest
  next =>
    split
    next surrogates =>
      rw [continuation_tail _ _ _ (by simp) (by simp; omega), continuation_any]
      exact continuation_done (by omega) rest
    next =>
      rw [if_pos (by omega), continuation_any, continuation_any]
      exact continuation_done (by omega) rest

theorem take_four {v : Nat} (low : 0xffff < v) (high : v < 0x110000) (rest : List UInt8) :
    take (UInt8.ofNat (v / 262144 % 0x08 + 0xf0))
      (tail (v / 4096) :: tail (v / 64) :: tail v :: rest) = ⟨some (Char.ofNat v), rest⟩ := by
  have lead : (UInt8.ofNat (v / 262144 % 0x08 + 0xf0)).toNat = v / 262144 + 0xf0 := by
    rw [UInt8.toNat_ofNat']
    omega
  generalize UInt8.ofNat (v / 262144 % 0x08 + 0xf0) = b at lead
  simp only [take, UInt8.lt_iff_toNat_lt, beq_iff_eq, ← UInt8.toNat_inj, lead, UInt8.reduceToNat]
  rw [if_neg (by omega), if_neg (by omega), if_neg (by omega), if_neg (by omega),
    if_neg (by omega), if_neg (by omega)]
  split
  next least =>
    rw [continuation_tail _ _ _ (by simp; omega) (by simp; omega), continuation_any,
      continuation_any]
    exact continuation_done (by omega) rest
  next =>
    split
    next =>
      rw [continuation_any, continuation_any, continuation_any]
      exact continuation_done (by omega) rest
    next =>
      rw [if_pos (by omega), continuation_tail _ _ _ (by simp) (by simp; omega),
        continuation_any, continuation_any]
      exact continuation_done (by omega) rest

theorem scan_encodeChar (c : Char) (rest : List UInt8) :
    scan (String.utf8EncodeChar c ++ rest) = some c :: scan rest := by
  have scalar : c.val.toNat < 0xd800 ∨ 0xdfff < c.val.toNat ∧ c.val.toNat < 0x110000 := c.valid
  have back : Char.ofNat c.val.toNat = c := Char.ofNat_toNat c
  have read {lead : UInt8} {others : List UInt8}
      (h : take lead (others ++ rest) = ⟨some (Char.ofNat c.val.toNat), rest⟩) :
      scan (lead :: others ++ rest) = some c :: scan rest := by
    rw [List.cons_append, scan_cons, h, back]
  fun_cases String.utf8EncodeChar c with
  | case1 v one => exact read (take_one one rest)
  | case2 v _ two => exact read (take_two (by omega) two rest)
  | case3 v _ _ three => exact read (take_three (by omega) three (by omega) rest)
  | case4 v _ _ _ => exact read (take_four (by omega) (by omega) rest)

theorem scan_encode (s : String) : scan (encode s) = s.toList.map some := by
  rw [encode]
  induction s.toList with
  | nil => simp
  | cons c cs ih => rw [List.flatMap_cons, scan_encodeChar, ih, List.map_cons]

@[simp] theorem strict?_encode (s : String) : strict? (encode s) = some s := by
  simp [strict?, scan_encode, List.filterMap_map]

@[simp] theorem lenient_encode (s : String) : lenient (encode s) = s := by
  simp [lenient, scan_encode, List.map_map, Function.comp_def]

/-- Only the zero character has a zero octet. -/
theorem zero_mem_encodeChar {c : Char} (h : 0 ∈ String.utf8EncodeChar c) : c = Char.ofNat 0 := by
  have zero {n : Nat} (isZero : 0 = UInt8.ofNat n) : n % 256 = 0 := by
    have := congrArg UInt8.toNat isZero
    rw [UInt8.toNat_ofNat'] at this
    exact this.symm
  have value : c.val.toNat = 0 := by
    revert h
    fun_cases String.utf8EncodeChar c with
    | case1 v one =>
      intro h
      have := zero (List.mem_singleton.mp h)
      omega
    | case2 v _ two =>
      intro h
      rcases List.mem_cons.mp h with h | h
      · have := zero h
        omega
      · have := zero (List.mem_singleton.mp h)
        omega
    | case3 v _ _ three =>
      intro h
      simp only [List.mem_cons, List.not_mem_nil, or_false] at h
      rcases h with h | h | h <;> have := zero h <;> omega
    | case4 v _ _ _ =>
      intro h
      simp only [List.mem_cons, List.not_mem_nil, or_false] at h
      rcases h with h | h | h | h <;> have := zero h <;> omega
  rw [← Char.ofNat_toNat c, Char.toNat, value]

theorem zero_not_mem_encode {s : String} (h : Char.ofNat 0 ∉ s.toList) : 0 ∉ encode s := by
  intro member
  obtain ⟨c, listed, isZero⟩ := List.mem_flatMap.mp member
  exact h (zero_mem_encodeChar isZero ▸ listed)

end WinFloor.Text.Utf8

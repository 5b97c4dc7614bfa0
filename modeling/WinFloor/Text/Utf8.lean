/-!
UTF-8 in both ways it is read here: strictly, where one malformed run spoils the text, and
leniently, where each malformed run becomes one replacement character.

A malformed run is as long as it could still have become a character: the leading octet and the
continuation octets that were allowed behind it.
-/
namespace WinFloor.Text.Utf8

/-- What the octets begin with: a character, or a malformed run; and the octets behind it. -/
structure Taken where
  char : Option Char
  rest : List UInt8

/-- The `owed` continuation octets of a character, the next of them between `low` and `high`;
`value` holds the bits read so far. -/
def continuation : (owed : Nat) → (low high : UInt8) → (value : Nat) → List UInt8 → Taken
  | 0, _, _, value, rest => ⟨some (Char.ofNat value), rest⟩
  | _ + 1, _, _, _, [] => ⟨none, []⟩
  | owed + 1, low, high, value, b :: rest =>
    if low ≤ b && b ≤ high then
      continuation owed 0x80 0xbf (value * 64 + b.toNat % 64) rest
    else ⟨none, b :: rest⟩

/-- The character that starts with `lead`. Overlong forms, surrogates and values past U+10FFFF are
ruled out by the range of the second octet. -/
def take (lead : UInt8) (rest : List UInt8) : Taken :=
  let value := lead.toNat
  if lead < 0x80 then ⟨some (Char.ofNat value), rest⟩
  else if lead < 0xc2 then ⟨none, rest⟩
  else if lead < 0xe0 then continuation 1 0x80 0xbf (value % 32) rest
  else if lead == 0xe0 then continuation 2 0xa0 0xbf 0 rest
  else if lead == 0xed then continuation 2 0x80 0x9f 13 rest
  else if lead < 0xf0 then continuation 2 0x80 0xbf (value % 16) rest
  else if lead == 0xf0 then continuation 3 0x90 0xbf 0 rest
  else if lead < 0xf4 then continuation 3 0x80 0xbf (value % 8) rest
  else if lead == 0xf4 then continuation 3 0x80 0x8f 4 rest
  else ⟨none, rest⟩

theorem continuation_rest_le (owed : Nat) (low high : UInt8) (value : Nat) (bs : List UInt8) :
    (continuation owed low high value bs).rest.length ≤ bs.length := by
  induction owed generalizing low high value bs with
  | zero => simp [continuation]
  | succ owed ih =>
    cases bs with
    | nil => simp [continuation]
    | cons b rest =>
      simp only [continuation, List.length_cons]
      split
      · exact Nat.le_succ_of_le (ih ..)
      · simp

theorem take_rest_le (lead : UInt8) (rest : List UInt8) :
    (take lead rest).rest.length ≤ rest.length := by
  simp only [take]
  repeat' split
  all_goals first | exact Nat.le_refl _ | exact continuation_rest_le ..

/-- The characters and malformed runs of the octets, in order, behind those in `done`. -/
def scanAfter (done : List (Option Char)) : List UInt8 → List (Option Char)
  | [] => done.reverse
  | lead :: rest =>
    let taken := take lead rest
    scanAfter (taken.char :: done) taken.rest
termination_by bs => bs.length
decreasing_by
  have := take_rest_le lead rest
  simp only [List.length_cons]
  omega

/-- The characters of the octets in order, `none` for a malformed run. -/
def scan (bs : List UInt8) : List (Option Char) :=
  scanAfter [] bs

/-- Stands for a malformed run. -/
def replacement : Char := Char.ofNat 0xfffd

/-- The text of the octets, each malformed run replaced. -/
def lenient (bs : List UInt8) : String :=
  String.ofList ((scan bs).map (·.getD replacement))

/-- The text of the octets, if none of it is malformed. -/
def strict? (bs : List UInt8) : Option String :=
  let cs := scan bs
  if cs.all Option.isSome then some (String.ofList (cs.filterMap id)) else none

theorem scanAfter_eq (done : List (Option Char)) (bs : List UInt8) :
    scanAfter done bs = done.reverse ++ scan bs := by
  match bs with
  | [] => simp [scan, scanAfter]
  | lead :: rest =>
    rw [scan, scanAfter, scanAfter, scanAfter_eq (_ :: done), scanAfter_eq [_]]
    simp
termination_by bs.length
decreasing_by
  all_goals
    have := take_rest_le lead rest
    simp only [List.length_cons]
    omega

@[simp] theorem scan_nil : scan [] = [] := by
  simp [scan, scanAfter]

theorem scan_cons (lead : UInt8) (rest : List UInt8) :
    scan (lead :: rest) = (take lead rest).char :: scan (take lead rest).rest := by
  rw [scan, scanAfter, scanAfter_eq]
  simp

end WinFloor.Text.Utf8

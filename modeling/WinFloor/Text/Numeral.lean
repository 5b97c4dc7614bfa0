/-!
Numerals of the messages: hexadecimal with a `0x` in front, filled with zeros to a least number of
digits.
-/
namespace WinFloor.Text

/-- The hexadecimal digits of `n`, at least `width` of them. -/
def hexDigits (width n : Nat) : List Char :=
  let digits := Nat.toDigits 16 n
  List.replicate (width - digits.length) '0' ++ digits

/-- `0x` and the hexadecimal digits of `n`, at least `width` of them. -/
def hex (width n : Nat) : String :=
  String.ofList ('0' :: 'x' :: hexDigits width n)

theorem le_length_hexDigits (width n : Nat) : width ≤ (hexDigits width n).length := by
  simp only [hexDigits, List.length_append, List.length_replicate]
  omega

end WinFloor.Text

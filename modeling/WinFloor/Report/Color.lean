/-!
Colored text on a terminal: an escape sequence switches a color on, another one switches all back.
-/
namespace WinFloor.Report

inductive Color
  | red
  | green
  | yellow
  | blue
  | cyan
  deriving DecidableEq, Repr

namespace Color

def digit : Color → Char
  | red => '1'
  | green => '2'
  | yellow => '3'
  | blue => '4'
  | cyan => '6'

def escape : Char := Char.ofNat 0x1b

/-- Switches the color on. -/
def start (c : Color) : List Char := [escape, '[', '3', c.digit, 'm']

/-- Switches all back. -/
def reset : List Char := [escape, '[', '0', 'm']

/-- The text with the color switched on again behind each place that switches all back. -/
def kept (c : Color) : List Char → List Char
  | a :: '[' :: '0' :: 'm' :: rest =>
    if a = escape then reset ++ c.start ++ kept c rest else a :: '[' :: '0' :: 'm' :: kept c rest
  | a :: rest => a :: kept c rest
  | [] => []

def paint (c : Color) (text : String) : String :=
  String.ofList (c.start ++ kept c text.toList ++ reset)

end Color

end WinFloor.Report

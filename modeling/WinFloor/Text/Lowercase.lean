import WinFloor.Text.Letter

/-!
Lower case of ASCII letters alone, and of a whole text by the rules of Unicode, where a capital
sigma at the end of a word has a lower case of its own.
-/
namespace WinFloor.Text

/-- Lower case for the letters A to Z; all else stays. -/
def lowerAscii (s : String) : String :=
  String.ofList (s.toList.map Char.toLower)

/-- Whether the first of `cs` that is not skipped is a cased character. -/
def startsCased (cs : List Char) : Bool :=
  ((cs.dropWhile isCaseIgnorable).head?.map isCased).getD false

def capitalSigma : Char := Char.ofNat 0x3a3
def smallSigma : Char := Char.ofNat 0x3c3
def finalSigma : Char := Char.ofNat 0x3c2

/-- The lower case of `c` between the characters before it, the last of them first, and those
after it. A sigma is final when it ends a word: a cased character before it and none after it. -/
def lowerBetween (before : List Char) (c : Char) (after : List Char) : List Char :=
  if c = capitalSigma then
    [if startsCased before && !startsCased after then finalSigma else smallSigma]
  else lowerChar c

/-- The lower case of `rest`, which stands behind the reversed `before`; the reversed `done` is
written already. -/
def lowerAfter (done before : List Char) : (rest : List Char) → List Char
  | [] => done.reverse
  | c :: rest => lowerAfter ((lowerBetween before c rest).reverse ++ done) (c :: before) rest

def lowercase (s : String) : String :=
  String.ofList (lowerAfter [] [] s.toList)

theorem lowerAfter_append (done before rest : List Char) :
    lowerAfter done before rest = done.reverse ++ lowerAfter [] before rest := by
  induction rest generalizing done before with
  | nil => simp [lowerAfter]
  | cons c rest ih =>
    rw [lowerAfter, lowerAfter, ih, ih ((lowerBetween before c rest).reverse ++ [])]
    simp

theorem lowerAfter_cons (before : List Char) (c : Char) (rest : List Char) :
    lowerAfter [] before (c :: rest) =
      lowerBetween before c rest ++ lowerAfter [] (c :: before) rest := by
  rw [lowerAfter, lowerAfter_append]
  simp

end WinFloor.Text

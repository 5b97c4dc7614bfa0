import WinFloor.Verdict

/-!
What is found out about a binary.
-/
namespace WinFloor

structure Assessment where
  path : String
  bits : Nat
  architecture : String
  symbols : Nat
  delayed : Nat
  mapped : Nat
  fallbacks : Nat
  build : Nat
  reason : String
  signal : Signal
  deriving DecidableEq, Repr

/-- Assesses the binary at `path` by its symbols, and by its header where that is asked for. -/
def Matcher.assess (m : Matcher) (path : String) (header : Image.Header)
    (symbols : Import.SymbolList) (withHeader : Bool) : Assessment :=
  let api := m.verdict symbols
  let decision := Decision.of api.verdict (if withHeader then some (.ofHeader header) else none)
  { path
    bits := header.bits
    architecture := header.architecture
    symbols := symbols.size
    delayed := symbols.countFrom .delayed
    mapped := api.mapped
    fallbacks := api.fallbacks
    build := decision.verdict.build
    reason := decision.verdict.reason
    signal := decision.signal }

end WinFloor

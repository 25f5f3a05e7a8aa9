/-! # Source positions -/

namespace YulCheck

/-- A range of byte positions in a source text: `start` is its first, `stop` follows its last. -/
structure Span where
  start : Nat
  stop : Nat
deriving DecidableEq, Repr, Inhabited

namespace Span

/-- The range of code that has no position: empty, at the start of the text. -/
def none : Span := ⟨0, 0⟩

/-- The smallest range that covers both. -/
def merge (left right : Span) : Span :=
  ⟨min left.start right.start, max left.stop right.stop⟩

end Span

end YulCheck

/-!
# Places in a source text

A span tells which bytes of the source something covers, and where it starts for a reader who
counts lines and columns.
-/

namespace Stencil

structure Span where
  start : Nat
  stop : Nat
  line : Nat
  /-- The column of the first character, counted from one in characters. -/
  column : Nat
deriving DecidableEq

def Span.nowhere : Span :=
  ⟨0, 0, 0, 0⟩

/-- The smallest stretch that covers two spans, placed at the line and column of the first. -/
def Span.cover (first second : Span) : Span :=
  { first with start := min first.start second.start, stop := max first.stop second.stop }

end Stencil

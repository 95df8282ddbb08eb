/-!
# Character classes

A character property of the Unicode standard is a set of code points. It is written down as runs
in ascending order, so that looking a character up can stop at the first run that lies above it.
-/

namespace Stencil.Text

inductive CharRun where
  | block (first last : Nat)
  /-- Every second code point from `first` to `last`, as in alphabets that list each capital letter
  right before its small letter. -/
  | alternate (first last : Nat)

namespace CharRun

def first : CharRun → Nat
  | block first _ => first
  | alternate first _ => first

def contains : CharRun → Nat → Bool
  | block first last, code => first ≤ code && code ≤ last
  | alternate first last, code => first ≤ code && code ≤ last && code % 2 == first % 2

end CharRun

/-- Whether some run of an ascending list holds the code point. Runs above the code point are not
looked at. -/
def inRuns : List CharRun → Nat → Bool
  | [], _ => false
  | run :: later, code => run.first ≤ code && (run.contains code || inRuns later code)

end Stencil.Text

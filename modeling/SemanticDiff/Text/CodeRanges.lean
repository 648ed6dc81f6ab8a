/-!
# Ranges of code points

A Unicode property is given here as a list of closed intervals of code points.
The tables of this folder hold only what lies above ASCII; the ASCII part of a
property is spelled out where the property is defined.
-/

namespace SemanticDiff.Text

/-- A set of code points, written as closed intervals. -/
abbrev CodeRanges := List (Nat × Nat)

namespace CodeRanges

/-- Whether a code point lies in one of the intervals. -/
def contains (ranges : CodeRanges) (code : Nat) : Bool :=
  ranges.any fun range => range.1 ≤ code && code ≤ range.2

end CodeRanges

end SemanticDiff.Text

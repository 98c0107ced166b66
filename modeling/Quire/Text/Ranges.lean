/-!
# Sets of code points

A Unicode property is a finite set of code points, kept as an ascending list of closed ranges.
-/

namespace Quire.Text

/-- Closed ranges of code points, ascending and disjoint. -/
abbrev CodeRanges := List (Nat × Nat)

/-- Membership. The search ends at the first range that starts past the code point. -/
def CodeRanges.contains : CodeRanges → Nat → Bool
  | [], _ => false
  | (first, last) :: rest, code =>
    if code < first then false
    else if code ≤ last then true
    else CodeRanges.contains rest code

/-- Each range is nonempty and ends before the next one starts. -/
def CodeRanges.ascending : CodeRanges → Bool
  | [] => true
  | [(first, last)] => first ≤ last
  | (first, last) :: (next, top) :: rest =>
    first ≤ last && last < next && CodeRanges.ascending ((next, top) :: rest)

end Quire.Text

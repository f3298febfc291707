/-!
# Sets of code points, written as toggle lists

A character class of a standard is a set of code points, and such a set is nearly
always a union of a few hundred intervals.  Writing the intervals as pairs repeats
the same work at every lookup: both ends are compared.  A *toggle list* writes only
the points at which membership changes, in increasing order.  Walking the list
outward from zero, membership starts out `false` and flips at each point that has
been reached, so a code point is in the set exactly when an odd number of points
are at most that code point.

The walk stops at the first point beyond the code point, which is correct because
the list is increasing.
-/

namespace SlotTree
namespace Text

/-- Whether `n` lies in the set that the increasing list `toggles` describes. -/
def within : (toggles : List Nat) → (n : Nat) → Bool
  | [], _ => false
  | t :: ts, n => if n < t then false else !within ts n

end Text
end SlotTree

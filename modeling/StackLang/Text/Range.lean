/-!
# Sorted ranges of code points

A property of characters is kept as a table of closed ranges in increasing order.  `Ranges.mem`
finds the range that could hold a code point by bisection.
-/

set_option autoImplicit false

namespace StackLang.Text

/-- Closed ranges of code points, disjoint and in increasing order. -/
abbrev Ranges := Array (Nat × Nat)

/-- Whether `c` lies in one of the ranges with index in `[lo, lo + width)`.  The window is halved
at every step. -/
def Ranges.memWithin (t : Ranges) (c lo width : Nat) : Bool :=
  if width = 0 then false
  else
    let mid := lo + width / 2
    let (first, last) := t.getD mid (0, 0)
    if c < first then t.memWithin c lo (width / 2)
    else if c ≤ last then true
    else t.memWithin c (mid + 1) (width - width / 2 - 1)
termination_by width

/-- Whether `c` lies in one of the ranges of the table. -/
def Ranges.mem (t : Ranges) (c : Nat) : Bool :=
  t.memWithin c 0 t.size

end StackLang.Text

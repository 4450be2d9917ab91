/-!
# Integer literals

A literal is an optional sign and at least one decimal digit.  It is read only if its value fits in
64 bits, with no wrapping.
-/

set_option autoImplicit false

namespace StackLang.Literal

/-- The value of a decimal digit. -/
def digitValue (c : Char) : Nat := c.toNat - 0x30

/-- Whether `c` is a decimal digit. -/
def isDigit (c : Char) : Bool := 0x30 ≤ c.toNat && c.toNat ≤ 0x39

/-- The number that a sequence of decimal digits writes. -/
def value (digits : List Char) : Nat :=
  digits.foldl (fun n c => n * 10 + digitValue c) 0

/-- The number that one or more decimal digits write. -/
def unsigned? (cs : List Char) : Option Nat :=
  if !cs.isEmpty && cs.all isDigit then some (value cs) else none

/-- The number that an optional sign and one or more decimal digits write. -/
def signed? : List Char → Option Int
  | '-' :: cs => (unsigned? cs).map fun n => -(n : Int)
  | '+' :: cs => (unsigned? cs).map fun n => (n : Int)
  | cs => (unsigned? cs).map fun n => (n : Int)

/-- Whether `n` is the value of a 64-bit signed integer. -/
def fits (n : Int) : Bool := -0x8000000000000000 ≤ n && n < 0x8000000000000000

/-- The 64-bit integer that a text writes. -/
def read? (cs : List Char) : Option Int64 :=
  (signed? cs).bind fun n => if fits n then some (Int64.ofInt n) else none

/-- The 64-bit integer that a text writes. -/
def readString? (s : String) : Option Int64 := read? s.toList

end StackLang.Literal

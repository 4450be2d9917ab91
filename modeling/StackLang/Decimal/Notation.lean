import StackLang.Decimal.Shortest

/-!
# Notation of decimals

How the digits of a number are laid out: positionally for moderate sizes, else with an exponent.
-/

set_option autoImplicit false

namespace StackLang.Decimal

/-- The decisions of a notation. -/
structure Notation where
  /-- The least exponent of the leading digit that is written positionally. -/
  plainFrom : Int
  /-- The least exponent of the leading digit that no longer is. -/
  plainBelow : Int
  /-- The least number of digits of a written exponent. -/
  exponentWidth : Nat
  deriving DecidableEq, Repr

/-- The digits of a number. -/
def digitChars (n : Nat) : List Char := (toString n).toList

/-- Zeros. -/
def zeros (n : Nat) : List Char := List.replicate n '0'

/-- The digits with a decimal point where the exponent puts it. -/
def Digits.positional (d : Digits) : List Char :=
  let cs := digitChars d.digits
  let before := (cs.length : Int) + d.exponent
  if 0 ≤ d.exponent then cs ++ zeros d.exponent.toNat
  else if 0 < before then cs.take before.toNat ++ '.' :: cs.drop before.toNat
  else '0' :: '.' :: zeros (-before).toNat ++ cs

/-- The digits with the point after the first one, and an exponent. -/
def Digits.scientific (width : Nat) (d : Digits) : List Char :=
  let cs := digitChars d.digits
  let e := (cs.length : Int) - 1 + d.exponent
  let sign := if e < 0 then '-' else '+'
  let digits := digitChars e.natAbs
  let point := if cs.length ≤ 1 then [] else '.' :: cs.drop 1
  cs.take 1 ++ point ++ 'e' :: sign :: zeros (width - digits.length) ++ digits

/-- A decimal in a notation. -/
def Notation.layout (n : Notation) (d : Digits) : List Char :=
  let e := ((digitChars d.digits).length : Int) - 1 + d.exponent
  if d.digits = 0 || (n.plainFrom ≤ e && e < n.plainBelow) then d.positional
  else d.scientific n.exponentWidth

/-- Digits with the sign of a number in front. -/
def withSign (x : Float) (digits : List Char) : String :=
  String.ofList (if x.toBits.toNat / 0x8000000000000000 = 1 then '-' :: digits else digits)

/-- A finite number in a notation, with the fewest digits that are read back as it. -/
def Notation.finite (n : Notation) (x : Float) : String :=
  withSign x (n.layout (Binary.ofBits x.toBits).shortest)

/-- The name of a number that is not finite. -/
def nonFinite? (x : Float) : Option String :=
  if x.isNaN then some "NaN"
  else if x.isInf then some (if 0 < x then "+Inf" else "-Inf")
  else none

/-- A number with so many places behind the decimal point. -/
def fixed (places : Nat) (x : Float) : String :=
  (nonFinite? x).getD
    (withSign x ((Binary.ofBits x.toBits).nearest (-(places : Int))).positional)

end StackLang.Decimal

/-!
# Shortest decimals

A finite binary number of 64 bits is a whole number times a power of two.  `shortest` finds the
decimal with the fewest digits that is read back as that number: of the decimals with a given
number of digits only the two neighbours of the number need be tried, and the nearer one is taken.
All comparisons are exact.
-/

set_option autoImplicit false

namespace StackLang.Decimal

/-- The number `mantissa * 2 ^ exponent`, as a 64-bit binary number. -/
structure Binary where
  mantissa : Nat
  exponent : Int
  /-- Whether the next number below is half as far away as the next one above. -/
  closeBelow : Bool := false
  deriving DecidableEq, Repr

/-- The absolute value of a finite number, from its bits. -/
def Binary.ofBits (bits : UInt64) : Binary :=
  let e : Nat := (bits.toNat / 0x10000000000000) % 0x800
  let f : Nat := bits.toNat % 0x10000000000000
  if e = 0 then { mantissa := f, exponent := -1074 }
  else
    { mantissa := 0x10000000000000 + f, exponent := (e : Int) - 1075,
      closeBelow := f == 0 && 1 < e }

/-- The number `digits * 10 ^ exponent`. -/
structure Digits where
  digits : Nat
  exponent : Int
  deriving DecidableEq, Repr

/-- Compare `a * 10 ^ i` with `n * 2 ^ j`. -/
def compareScaled (a : Nat) (i : Int) (n : Nat) (j : Int) : Ordering :=
  compare (a * Nat.pow 10 i.toNat * Nat.pow 2 (-j).toNat)
    (n * Nat.pow 2 j.toNat * Nat.pow 10 (-i).toNat)

/-- Whether a decimal is read back as the number: it lies within half the distance to either
neighbour, or at the end of that range if the mantissa is even. -/
def Binary.readsBack (x : Binary) (d : Digits) : Bool :=
  let lo := if x.closeBelow then 4 * x.mantissa - 1 else 4 * x.mantissa - 2
  let hi := 4 * x.mantissa + 2
  let closed := x.mantissa % 2 == 0
  let below := compareScaled d.digits d.exponent lo (x.exponent - 2)
  let above := compareScaled d.digits d.exponent hi (x.exponent - 2)
  (below == .gt || (closed && below == .eq)) && (above == .lt || (closed && above == .eq))

/-- The whole part of the number divided by `10 ^ e`. -/
def Binary.quotient (x : Binary) (e : Int) : Nat :=
  (x.mantissa * Nat.pow 2 x.exponent.toNat * Nat.pow 10 (-e).toNat) /
    (Nat.pow 2 (-x.exponent).toNat * Nat.pow 10 e.toNat)

/-- The exponent of the leading decimal digit, sought downwards from `e`. -/
def Binary.leading (x : Binary) : (fuel : Nat) → (e : Int) → Int
  | 0, e => e
  | fuel + 1, e => if 0 < x.quotient e then e else x.leading fuel (e - 1)

/-- Of two neighbours on a grid, the nearer one to the number; of two as near, the even one. -/
def Binary.nearer (x : Binary) (low high : Digits) : Digits :=
  match compareScaled (low.digits + high.digits) low.exponent (2 * x.mantissa) x.exponent with
  | .lt => high
  | .gt => low
  | .eq => if low.digits % 2 = 0 then low else high

/-- The decimal on the grid of `10 ^ e` that is read back as the number, if there is one. -/
def Binary.onGrid (x : Binary) (e : Int) : Option Digits :=
  let low : Digits := ⟨x.quotient e, e⟩
  let high : Digits := ⟨x.quotient e + 1, e⟩
  match x.readsBack low, x.readsBack high with
  | true, true => some (x.nearer low high)
  | true, false => some low
  | false, true => some high
  | false, false => none

/-- Drop the zeros at the end. -/
def Digits.strip : (fuel : Nat) → Digits → Digits
  | 0, d => d
  | fuel + 1, d =>
    if d.digits ≠ 0 ∧ d.digits % 10 = 0 then
      Digits.strip fuel ⟨d.digits / 10, d.exponent + 1⟩
    else d

/-- The decimal with the fewest digits that is read back as the number.  Seventeen digits are
enough for every number. -/
def Binary.shortest (x : Binary) : Digits :=
  if x.mantissa = 0 then ⟨0, 0⟩
  else
    let top := x.leading 700 310
    let found := (List.range 17).findSome? fun (k : Nat) => x.onGrid (top - k)
    (found.getD ⟨x.quotient (top - 16), top - 16⟩).strip 20

/-- The decimal on the grid of `10 ^ e` that is nearest to the number; of two as near, the even
one. -/
def Binary.nearest (x : Binary) (e : Int) : Digits :=
  x.nearer ⟨x.quotient e, e⟩ ⟨x.quotient e + 1, e⟩

end StackLang.Decimal

import StackLang.Decimal.Notation

/-!
# Numbers in arguments

How programs read numbers from the start of a text: blanks, a sign, a mark of the base and digits.
What is left of the text is returned too, since it depends on the program whether more may follow.
-/

set_option autoImplicit false

namespace StackLang.Shell

/-- Whether an octet is white space. -/
def isBlank (c : Char) : Bool :=
  c == ' ' || ('\t' ≤ c && c ≤ '\r')

/-- The value of a digit. -/
def digitOf? (c : Char) : Option Nat :=
  if '0' ≤ c && c ≤ '9' then some (c.toNat - 48)
  else if 'a' ≤ c && c ≤ 'z' then some (c.toNat - 87)
  else if 'A' ≤ c && c ≤ 'Z' then some (c.toNat - 55)
  else none

/-- Whether a character is a digit of a base. -/
def isDigitOf (base : Nat) (c : Char) : Bool := (digitOf? c).any (· < base)

/-- The value of digits of a base. -/
def digitsValue (base : Nat) (cs : List Char) : Nat :=
  cs.foldl (fun n c => n * base + (digitOf? c).getD 0) 0

/-- A sign at the start: whether it is a minus, and the rest. -/
def takeSign : List Char → Bool × List Char
  | '-' :: rest => (true, rest)
  | '+' :: rest => (false, rest)
  | cs => (false, cs)

/-- A number read from the start of a text. -/
structure Numeral where
  /-- There are no digits at all. -/
  missing : Bool := false
  negative : Bool := false
  magnitude : Nat := 0
  rest : List Char

/-- The base that is marked at the start, and the digits behind the mark. -/
def markedBase (cs : List Char) : Nat × List Char :=
  match cs with
  | '0' :: x :: d :: rest =>
    if (x == 'x' || x == 'X') && isDigitOf 16 d then (16, d :: rest)
    else if (x == 'b' || x == 'B') && isDigitOf 2 d then (2, d :: rest)
    else (8, cs)
  | '0' :: _ => (8, cs)
  | _ => (10, cs)

/-- Read a whole number, in base ten or in the base that is marked. -/
def readNumeral (marks : Bool) (cs : List Char) : Numeral :=
  let (negative, digits) := takeSign (cs.dropWhile isBlank)
  let (base, digits) := if marks then markedBase digits else (10, digits)
  let taken := digits.takeWhile (isDigitOf base)
  if taken.isEmpty then { missing := true, rest := cs }
  else { negative, magnitude := digitsValue base taken, rest := digits.drop taken.length }

/-- The number in 64 bits with a sign, and whether it is out of range. -/
def Numeral.signed (n : Numeral) : Int × Bool :=
  if n.negative then
    if n.magnitude ≤ 0x8000000000000000 then (-(n.magnitude : Int), false)
    else (-0x8000000000000000, true)
  else if n.magnitude < 0x8000000000000000 then (n.magnitude, false)
  else (0x7FFFFFFFFFFFFFFF, true)

/-- The number in 64 bits without a sign, where a minus counts from the end of the range, and
whether it is out of range. -/
def Numeral.unsigned (n : Numeral) : Nat × Bool :=
  if UInt64.size ≤ n.magnitude then (UInt64.size - 1, true)
  else if n.negative then ((UInt64.size - n.magnitude) % UInt64.size, false)
  else (n.magnitude, false)

/-- The whole text as a number in base ten with a sign, blanks around it allowed. -/
def decimal? (s : String) : Option Int :=
  let n := readNumeral false s.toList
  let (value, tooLarge) := n.signed
  if n.missing || tooLarge || !n.rest.all isBlank then none else some value

/-- The whole text as a number that is not negative and fits into 31 bits. -/
def count? (s : String) : Option Nat :=
  (decimal? s).bind fun n => if 0 ≤ n && n < 0x80000000 then some n.toNat else none

/-! ## Fractions -/

/-- A number with a fraction read from the start of a text. -/
structure Fractional where
  missing : Bool := false
  value : Float := 0
  outOfRange : Bool := false
  rest : List Char

/-- Digits at the start, with a point among them: the digits, how many stand behind the point, and
the rest. -/
def takeDigits (base : Nat) (cs : List Char) : List Char × Nat × List Char :=
  let whole := cs.takeWhile (isDigitOf base)
  match cs.drop whole.length with
  | '.' :: rest =>
    let part := rest.takeWhile (isDigitOf base)
    if whole.isEmpty && part.isEmpty then ([], 0, cs)
    else (whole ++ part, part.length, rest.drop part.length)
  | rest => (whole, 0, rest)

/-- An exponent behind a letter, and the rest.  Without digits there is none. -/
def takeExponent (letter : Char) (cs : List Char) : Int × List Char :=
  match cs with
  | c :: rest =>
    if c.toLower == letter then
      let (negative, digits) := takeSign rest
      let taken := digits.takeWhile (isDigitOf 10)
      if taken.isEmpty then (0, cs)
      else
        let n : Int := min (digitsValue 10 taken) 100000
        (if negative then -n else n, digits.drop taken.length)
    else (0, cs)
  | [] => (0, [])

/-- A word at the start, in any case. -/
def takeWordOf? (word : String) (cs : List Char) : Option (List Char) :=
  if (cs.take word.length).map Char.toLower == word.toList then some (cs.drop word.length)
  else none

/-- Read a number with a fraction. -/
def readFractional (cs : List Char) : Fractional :=
  let (negative, body) := takeSign (cs.dropWhile isBlank)
  let signed (x : Float) : Float := if negative then -x else x
  let infinite (rest : List Char) : Fractional := { value := signed (1.0 / 0.0), rest }
  match takeWordOf? "infinity" body, takeWordOf? "inf" body, takeWordOf? "nan" body with
  | some rest, _, _ => infinite rest
  | _, some rest, _ => infinite rest
  | _, _, some rest => { value := signed (0.0 / 0.0), rest }
  | none, none, none =>
    let hexadecimal := match body with
      | '0' :: x :: rest =>
        (x == 'x' || x == 'X') && !(takeDigits 16 rest).1.isEmpty
      | _ => false
    if hexadecimal then
      let (digits, places, rest) := takeDigits 16 (body.drop 2)
      let (e, rest) := takeExponent 'p' rest
      let m := digitsValue 16 digits
      { value := signed ((Float.ofNat m).scaleB (e - 4 * places)), rest }
    else
      let (digits, places, rest) := takeDigits 10 body
      if digits.isEmpty then { missing := true, rest := cs }
      else
        let (e, rest) := takeExponent 'e' rest
        let m := digitsValue 10 digits
        let e := e - places
        let x := if m = 0 then 0.0 else
          if 0 ≤ e then Float.ofScientific m false e.toNat
          else Float.ofScientific m true (-e).toNat
        -- the least number with all its digits is 2^-1022
        let small := m ≠ 0 && x < 2.2250738585072014e-308
        { value := signed x, outOfRange := x.isInf || small, rest }

end StackLang.Shell

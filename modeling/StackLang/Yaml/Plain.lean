import StackLang.Literal

/-!
# What a plain scalar means

A plain scalar is a null, a truth value, a number or a date if it is written like one, and a string
otherwise.
-/

set_option autoImplicit false

namespace StackLang.Yaml

/-- The meaning of a scalar. -/
inductive Meaning where
  | null
  | bool (b : Bool)
  /-- An integer from −2^63 to 2^64 − 1. -/
  | int (n : Int)
  | float (x : Float)
  | timestamp
  | str
  deriving Inhabited

namespace Meaning

/-- The tag of a meaning. -/
def tag : Meaning → String
  | null => "!!null"
  | bool _ => "!!bool"
  | int _ => "!!int"
  | float _ => "!!float"
  | timestamp => "!!timestamp"
  | str => "!!str"

end Meaning

namespace Plain

/-! ## Integers -/

/-- The value of a digit in a base up to sixteen. -/
def digit? (base : Nat) (c : Char) : Option Nat :=
  let n := c.toNat
  let v :=
    if 0x30 ≤ n && n ≤ 0x39 then n - 0x30
    else if 0x61 ≤ n && n ≤ 0x66 then n - 0x57
    else if 0x41 ≤ n && n ≤ 0x46 then n - 0x37
    else base
  if v < base then some v else none

/-- The number that one or more digits write in a base. -/
def digits? (base : Nat) : List Char → Option Nat
  | [] => none
  | cs => cs.foldl (fun acc c => acc.bind fun n => (digit? base c).map (n * base + ·)) (some 0)

/-- An unsigned integer: hexadecimal after `0x`, octal after `0o` or `0`, binary after `0b`. -/
def magnitude? : List Char → Option Nat
  | '0' :: 'x' :: cs => digits? 16 cs
  | '0' :: 'X' :: cs => digits? 16 cs
  | '0' :: 'o' :: cs => digits? 8 cs
  | '0' :: 'O' :: cs => digits? 8 cs
  | '0' :: 'b' :: cs => digits? 2 cs
  | '0' :: 'B' :: cs => digits? 2 cs
  | ['0'] => some 0
  | '0' :: cs => digits? 8 cs
  | cs => digits? 10 cs

/-- The least natural number that is no signed integer of 64 bits. -/
def signedLimit : Nat := 0x8000000000000000

/-- An integer with an optional sign, from −2^63 to 2^63 − 1, or without a sign up to
2^64 − 1. -/
def integer? (cs : List Char) : Option Int :=
  match cs with
  | '-' :: cs => (magnitude? cs).bind fun n => if n ≤ signedLimit then some (-(n : Int)) else none
  | '+' :: cs => (magnitude? cs).bind fun n => if n < signedLimit then some (n : Int) else none
  | cs => (magnitude? cs).bind fun n => if n < UInt64.size then some (n : Int) else none

/-- Binary after `0b` or octal after `0o`, with a sign behind these. -/
def inverted? : List Char → Option Int
  | '0' :: 'b' :: s :: cs => signed? 2 s cs
  | '0' :: 'o' :: s :: cs => signed? 8 s cs
  | _ => none
where
  /-- Digits behind a sign. -/
  signed? (base : Nat) (s : Char) (cs : List Char) : Option Int :=
    (digits? base cs).bind fun n =>
      if s == '-' && n ≤ signedLimit then some (-(n : Int))
      else if s == '+' && n < signedLimit then some (n : Int)
      else none

/-! ## Decimal fractions -/

/-- The exponent part of a number: nothing, or a letter, an optional sign and digits. -/
def exponent? : List Char → Option Int
  | [] => some 0
  | c :: cs => if c == 'e' || c == 'E' then Literal.signed? cs else none

/-- The number that `whole` and `part` write around a decimal point, times a power of ten. -/
def scaled (whole part : List Char) (e : Int) : Float :=
  let m := Literal.value (whole ++ part)
  let e := e - part.length
  -- no power of ten this large changes the outcome
  let e := max (-100000) (min 100000 e)
  if m = 0 then 0.0
  else if 0 ≤ e then Float.ofScientific m false e.toNat
  else Float.ofScientific m true (-e).toNat

/-- A decimal number without sign, unless it is too large for a float. -/
def fraction? (cs : List Char) : Option Float :=
  let whole := cs.takeWhile Literal.isDigit
  let rest := cs.dropWhile Literal.isDigit
  let (part, rest, point) :=
    match rest with
    | '.' :: rest => (rest.takeWhile Literal.isDigit, rest.dropWhile Literal.isDigit, true)
    | rest => ([], rest, false)
  if whole.isEmpty && (!point || part.isEmpty) then none
  else
    (exponent? rest).bind fun e =>
      let x := scaled whole part e
      if x.isInf then none else some x

/-- Whether every underscore stands between two digits.  `afterDigit` says whether the character
before is a digit. -/
def separatesDigits (afterDigit : Bool) : List Char → Bool
  | [] => true
  | '_' :: c :: rest => afterDigit && Literal.isDigit c && separatesDigits true rest
  | ['_'] => false
  | c :: rest => separatesDigits (Literal.isDigit c) rest

/-- A decimal number without sign whose digits may be grouped by underscores. -/
def grouped? (cs : List Char) : Option Float :=
  if separatesDigits false cs then fraction? (cs.filter (· != '_')) else none

/-- A decimal number with an optional sign. -/
def number? : List Char → Option Float
  | '-' :: cs => (fraction? cs).map fun x => -x
  | '+' :: cs => fraction? cs
  | cs => fraction? cs

/-! ## Dates -/

/-- One or two digits at the start. -/
def oneOrTwo? (cs : List Char) : Option (Nat × List Char) :=
  match cs with
  | a :: b :: rest =>
    if Literal.isDigit a && Literal.isDigit b then some (Literal.value [a, b], rest)
    else if Literal.isDigit a then some (Literal.value [a], b :: rest)
    else none
  | [a] => if Literal.isDigit a then some (Literal.value [a], []) else none
  | [] => none

/-- The number of days of a month. -/
def daysIn (year month : Nat) : Nat :=
  if month = 2 then
    if year % 4 = 0 ∧ (year % 100 ≠ 0 ∨ year % 400 = 0) then 29 else 28
  else if month = 4 ∨ month = 6 ∨ month = 9 ∨ month = 11 then 30
  else 31

/-- A given character at the start. -/
def after? (c : Char) : List Char → Option (List Char)
  | x :: rest => if x == c then some rest else none
  | [] => none

/-- A date at the start: a year of four digits, a month and a day. -/
def date? (cs : List Char) : Option (List Char) := do
  let year := cs.take 4
  if year.length != 4 || !year.all Literal.isDigit then none
  let rest ← after? '-' (cs.drop 4)
  let (month, rest) ← oneOrTwo? rest
  let rest ← after? '-' rest
  let (day, rest) ← oneOrTwo? rest
  if month < 1 || 12 < month || day < 1 || daysIn (Literal.value year) month < day then none
  return rest

/-- A time of day at the start: hours, minutes and seconds, perhaps with a fraction. -/
def clock? (cs : List Char) : Option (List Char) := do
  let (hour, rest) ← oneOrTwo? cs
  let rest ← after? ':' rest
  let (minute, rest) ← oneOrTwo? rest
  let rest ← after? ':' rest
  let (second, rest) ← oneOrTwo? rest
  if 24 ≤ hour || 60 ≤ minute || 60 ≤ second then none
  match rest with
  | c :: d :: more =>
    if (c == '.' || c == ',') && Literal.isDigit d then return more.dropWhile Literal.isDigit
    else return rest
  | _ => return rest

/-- A time zone: `Z`, or a sign, hours and minutes of two digits each. -/
def isZone : List Char → Bool
  | ['Z'] => true
  | [s, a, b, ':', c, d] =>
    (s == '+' || s == '-') && [a, b, c, d].all Literal.isDigit &&
      Literal.value [a, b] ≤ 24 && Literal.value [c, d] ≤ 60
  | _ => false

/-- Whether a text is a date, or a date and a time of day. -/
def isTimestamp (cs : List Char) : Bool :=
  match date? cs with
  | none => false
  | some [] => true
  | some (c :: rest) =>
    if c == 'T' || c == 't' then
      match clock? rest with
      | some zone => isZone zone
      | none => false
    else if c == ' ' then clock? (rest.dropWhile (· == ' ')) == some []
    else false

/-! ## Meanings -/

/-- The words with a meaning of their own. -/
def word? (s : String) : Option Meaning :=
  if ["", "~", "null", "Null", "NULL"].contains s then some .null
  else if ["true", "True", "TRUE"].contains s then some (.bool true)
  else if ["false", "False", "FALSE"].contains s then some (.bool false)
  else if [".nan", ".NaN", ".NAN"].contains s then some (.float (0.0 / 0.0))
  else if [".inf", ".Inf", ".INF", "+.inf", "+.Inf", "+.INF"].contains s then
    some (.float (1.0 / 0.0))
  else if ["-.inf", "-.Inf", "-.INF"].contains s then some (.float (-1.0 / 0.0))
  else none

/-- The meaning of a scalar that starts with a digit or a sign.  Underscores between the digits do
not count. -/
def numeric (dates : Bool) (cs : List Char) : Meaning :=
  if dates && isTimestamp cs then .timestamp
  else
    let plain := cs.filter (· != '_')
    match integer? plain with
    | some n => .int n
    | none =>
      match number? plain with
      | some x => .float x
      | none => ((inverted? plain).map .int).getD .str

/-- The meaning of a plain scalar.  Without `dates`, dates are not looked for. -/
def meaning (dates : Bool) (s : String) : Meaning :=
  match word? s with
  | some m => m
  | none =>
    match s.toList with
    | [] => .null
    | c :: cs =>
      if c == '.' then
        match grouped? (c :: cs) with
        | some x => .float x
        | none => .str
      else if c == '+' || c == '-' || Literal.isDigit c then numeric dates (c :: cs)
      else .str

/-- A number truncated to 64 bits, unless it is above the range.  Numbers below the range and the
end of the range itself become the least integer. -/
def truncate? (x : Float) : Option Int64 :=
  if x ≤ 9223372036854775808.0 then
    if x < 9223372036854775808.0 && x ≥ -9223372036854775808.0 then some x.toInt64
    else some Int64.minValue
  else none

/-! ## Words that other readers take for truth values or numbers -/

/-- The further spellings of truth values. -/
def looseBool? (s : String) : Option Bool :=
  if ["y", "Y", "yes", "Yes", "YES", "on", "On", "ON"].contains s then some true
  else if ["n", "N", "no", "No", "NO", "off", "Off", "OFF"].contains s then some false
  else none

/-- Groups of at most two digits below 60, each after a colon, and perhaps a fraction. -/
def isSexagesimalTail : List Char → Bool
  | [] => true
  | ':' :: a :: b :: rest =>
    if Literal.isDigit a && Literal.isDigit b then
      a.toNat ≤ 0x35 && isSexagesimalTail rest
    else if Literal.isDigit a then isSexagesimalTail (b :: rest)
    else false
  | [':', a] => Literal.isDigit a
  | '.' :: rest => rest.all fun c => Literal.isDigit c || c == '_'
  | _ => false

/-- Whether a text is a number in base 60, such as `12:30`. -/
def isSexagesimal (s : String) : Bool :=
  let cs := match s.toList with
    | '-' :: cs => cs
    | '+' :: cs => cs
    | cs => cs
  match cs with
  | c :: rest =>
    let tail := rest.dropWhile fun c => Literal.isDigit c || c == '_'
    Literal.isDigit c && tail.head? == some ':' && isSexagesimalTail tail
  | [] => false

end Plain

end StackLang.Yaml

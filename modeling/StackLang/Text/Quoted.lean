import StackLang.Text.Printable

/-!
# Quoted text

A text between double quotes, with escapes for the quote, the backslash and every character that
cannot be shown: a letter escape where there is one, else the code point in two, four or eight
hexadecimal digits.
-/

set_option autoImplicit false

namespace StackLang.Text

/-- A digit below sixteen, in lower case. -/
def hexDigit (n : Nat) : Char :=
  if n < 10 then Char.ofNat (0x30 + n) else Char.ofNat (0x57 + n)

/-- The last `digits` hexadecimal digits of `n`. -/
def hexDigits (n : Nat) : (digits : Nat) → List Char
  | 0 => []
  | d + 1 => hexDigits (n / 16) d ++ [hexDigit (n % 16)]

/-- One character inside a quoted text. -/
def quoteChar (c : Char) : List Char :=
  if c == '"' || c == '\\' then ['\\', c]
  else if isPrintable c then [c]
  else
    match c.toNat with
    | 0x07 => ['\\', 'a']
    | 0x08 => ['\\', 'b']
    | 0x0C => ['\\', 'f']
    | 0x0A => ['\\', 'n']
    | 0x0D => ['\\', 'r']
    | 0x09 => ['\\', 't']
    | 0x0B => ['\\', 'v']
    | n =>
      if n < 0x20 || n == 0x7F then '\\' :: 'x' :: hexDigits n 2
      else if n < 0x10000 then '\\' :: 'u' :: hexDigits n 4
      else '\\' :: 'U' :: hexDigits n 8

/-- `s` between double quotes, escaped. -/
def quoted (s : String) : String :=
  String.ofList ('"' :: s.toList.flatMap quoteChar ++ ['"'])

/-- A single character between single quotes, escaped. -/
def quotedChar (c : Char) : String :=
  let inner := if c == '\'' then ['\\', c] else if c == '"' then [c] else quoteChar c
  String.ofList ('\'' :: inner ++ ['\''])

end StackLang.Text

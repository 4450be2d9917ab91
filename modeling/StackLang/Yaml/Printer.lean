import StackLang.Yaml.Cursor
import StackLang.Yaml.Plain
import StackLang.Text.Quoted

/-!
# Writing strings

A string is written plain where it can be: when it would be read back as a string and holds
nothing that ends or changes a plain scalar.  Otherwise it goes between quotes, single ones unless
a character needs an escape, and a string of several lines is written as a literal block.
-/

set_option autoImplicit false

namespace StackLang.Yaml.Printer

/-- The characters that are written as they are: a line feed, printable ASCII, and the characters
from U+00A0 on of the first plane but for the byte order mark. -/
def isShown (c : Char) : Bool :=
  let n := c.toNat
  n == 0x0A || (0x20 ≤ n && n ≤ 0x7E) || (0xA0 ≤ n && n ≤ 0xFFFD && n != 0xFEFF)

/-- The characters that a plain scalar cannot start with. -/
def isLeadingIndicator (c : Char) : Bool :=
  ['#', ',', '[', ']', '{', '}', '&', '*', '!', '|', '>', '\'', '"', '%', '@'].contains c ||
    c.toNat == 0x60

/-- Whether `rest` is empty or starts with a blank. -/
def blankOrEnd : List Char → Bool
  | [] => true
  | c :: _ => isBlank c

/-- Whether, after the first character, a colon stands in front of a blank or at the end, or a
number sign after a blank or a line end.  `prev` is the character before. -/
def hasInnerIndicator (prev : Char) : List Char → Bool
  | [] => false
  | c :: rest =>
    (c == ':' && blankOrEnd rest) ||
      (c == '#' && (isBlank prev || isBreak prev || prev.toNat == 0)) ||
      hasInnerIndicator c rest

/-- Whether a text has an indicator that a plain scalar cannot have where it stands. -/
def hasIndicator (cs : List Char) : Bool :=
  match cs with
  | [] => false
  | c :: rest =>
    "---".toList.isPrefixOf cs || "...".toList.isPrefixOf cs || isLeadingIndicator c ||
      ((c == '?' || c == ':' || c == '-') && blankOrEnd rest) || hasInnerIndicator c rest

/-- Whether a character of the first kind stands directly in front of one of the second. -/
def hasPair (p q : Char → Bool) : List Char → Bool
  | a :: b :: rest => (p a && q b) || hasPair p q (b :: rest)
  | _ => false

/-- Whether a character is a space. -/
def isSpaceChar (c : Char) : Bool := c == ' '

/-- Whether there are characters that only an escape can write. -/
def needsEscape (cs : List Char) : Bool := cs.any fun c => c != '\t' && !isShown c

/-- Whether a text can stand between single quotes. -/
def canBeSingle (cs : List Char) : Bool :=
  !hasPair isBreak isSpaceChar cs && !hasPair isSpaceChar isBreak cs && !cs.contains '\t' &&
    !needsEscape cs

/-- Whether a text can be written plain. -/
def canBePlain (cs : List Char) : Bool :=
  canBeSingle cs && !cs.any isBreak && cs.head? != some ' ' && cs.getLast? != some ' ' &&
    !hasIndicator cs

/-- Whether a text can be written as a literal block. -/
def canBeLiteral (cs : List Char) : Bool :=
  cs.getLast? != some ' ' && !hasPair isSpaceChar isBreak cs && !needsEscape cs

/-- Whether a plain scalar would be read back as a string, by all readers. -/
def readsAsString (s : String) : Bool :=
  match Plain.meaning true s with
  | .str => !Plain.isSexagesimal s && (Plain.looseBool? s).isNone
  | _ => false

/-- How a string is written. -/
inductive Style where
  | plain
  | single
  | double
  | literal
  deriving DecidableEq, Repr

/-- The style of a string. -/
def style (s : String) : Style :=
  let cs := s.toList
  if cs.contains '\n' then if canBeLiteral cs then .literal else .double
  else if !readsAsString s then .double
  else if canBePlain cs then .plain
  else if canBeSingle cs then .single
  else .double

/-- A character inside double quotes, as it is only if `shown` allows it. -/
def escaped (shown : Bool) (c : Char) : List Char :=
  if shown && isShown c && !isBreak c && c != '"' && c != '\\' then [c]
  else
    match c.toNat with
    | 0x00 => ['\\', '0']
    | 0x07 => ['\\', 'a']
    | 0x08 => ['\\', 'b']
    | 0x09 => ['\\', 't']
    | 0x0A => ['\\', 'n']
    | 0x0B => ['\\', 'v']
    | 0x0C => ['\\', 'f']
    | 0x0D => ['\\', 'r']
    | 0x1B => ['\\', 'e']
    | 0x22 => ['\\', '"']
    | 0x5C => ['\\', '\\']
    | 0x85 => ['\\', 'N']
    | 0xA0 => ['\\', '_']
    | 0x2028 => ['\\', 'L']
    | 0x2029 => ['\\', 'P']
    | n =>
      let digits (k : Nat) := (Text.hexDigits n k).map Char.toUpper
      if n ≤ 0xFF then '\\' :: 'x' :: digits 2
      else if n ≤ 0xFFFF then '\\' :: 'u' :: digits 4
      else '\\' :: 'U' :: digits 8

/-- Whether a text starts with a byte order mark. -/
def startsWithMark (cs : List Char) : Bool := cs.head?.any fun c => c.toNat == 0xFEFF

/-- A string between double quotes.  One that starts with a byte order mark is escaped
throughout. -/
def double (cs : List Char) : List Char :=
  '"' :: cs.flatMap (escaped !startsWithMark cs) ++ ['"']

/-- The indentation of the lines of a value. -/
def indentation : List Char := [' ', ' ']

/-- Characters between single quotes: a quote is doubled, and what follows a line end is
indented. -/
def singleChars (atStart : Bool) : List Char → List Char
  | [] => []
  | c :: rest =>
    if c == ' ' then c :: singleChars atStart rest
    else if isBreak c then c :: singleChars true rest
    else
      let shown := if c == '\'' then ['\'', '\''] else [c]
      (if atStart then indentation else []) ++ shown ++ singleChars false rest

/-- A string between single quotes. -/
def single (cs : List Char) : List Char := '\'' :: singleChars false cs ++ ['\'']

/-- The indicators of a literal block: its indentation if the text starts with a blank or a line
end, and what is to happen to the line ends after the last line. -/
def literalHints (cs : List Char) : List Char :=
  let indent := match cs with
    | c :: _ => if c == ' ' || isBreak c then ['2'] else []
    | [] => []
  let chomp := match cs.reverse with
    | [] => ['-']
    | [c] => if isBreak c then ['+'] else ['-']
    | c :: d :: _ => if !isBreak c then ['-'] else if isBreak d then ['+'] else []
  indent ++ chomp

/-- The lines of a literal block, each with its indentation.  Empty lines have none. -/
def literalLines (atStart : Bool) : List Char → List Char
  | [] => []
  | c :: rest =>
    if isBreak c then c :: literalLines true rest
    else (if atStart then indentation else []) ++ c :: literalLines false rest

/-- A literal block after its bar, up to but not including the end of its last line.  A line end
that the text starts with also ends the line of the bar. -/
def literal (cs : List Char) : List Char :=
  let first := match cs with
    | c :: _ => if isBreak c then [] else ['\n']
    | [] => []
  '|' :: literalHints cs ++ first ++ literalLines true cs

/-- The text of a string that is the value of a key in the first column, with its line end. -/
def value (s : String) : String :=
  let cs := s.toList
  match style s with
  | .plain => s ++ "\n"
  | .single => String.ofList (single cs ++ ['\n'])
  | .double => String.ofList (double cs ++ ['\n'])
  | .literal =>
    String.ofList (literal cs ++ if (cs.getLast?.map isBreak).getD false then [] else ['\n'])

end StackLang.Yaml.Printer

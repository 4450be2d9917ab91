import StackLang.Literal

/-!
# Texts with percent directives

A title may hold percent directives, for which no arguments are ever given.  `%%` stands for a
percent sign, and every other directive is replaced by a note of what is missing.  A directive is a
percent sign, flags, an optional argument index in brackets, a width, a precision and a verb.
-/

set_option autoImplicit false

namespace StackLang.Text.Directive

/-- The flags of a directive. -/
def isFlag (c : Char) : Bool :=
  c == '#' || c == '0' || c == '+' || c == '-' || c == ' '

/-- The greatest number that is taken for a width or a precision, its last digit apart. -/
def numberLimit : Nat := 1000000

/-- Skip a number.  The flag says whether there is one; a number that is too large swallows all
that follows. -/
def skipNumber (cs : List Char) : Bool × List Char :=
  let digits := cs.takeWhile Literal.isDigit
  if digits.isEmpty then (false, cs)
  else if numberLimit < Literal.value digits.dropLast then (false, [])
  else (true, cs.drop digits.length)

/-- The argument index at the start, if any: whether it is well formed, and what follows it. -/
def skipIndex (cs : List Char) : Option (Bool × List Char) :=
  match cs with
  | '[' :: rest =>
    if cs.length < 3 then some (false, rest)
    else
      let inner := rest.takeWhile (· != ']')
      match rest.drop inner.length with
      | [] => some (false, rest)
      | _ :: after =>
        let (found, left) := skipNumber inner
        some (found && left.isEmpty, after)
  | _ => none

/-- A directive being read: what it has written so far, whether its argument index is good, and
whether an index has just been read. -/
structure Scan where
  written : List Char := []
  good : Bool := true
  afterIndex : Bool := false
  rest : List Char

/-- Read an argument index.  No index is good, since there are no arguments. -/
def Scan.index (s : Scan) : Scan :=
  match skipIndex s.rest with
  | none => { s with afterIndex := false }
  | some (found, rest) => { s with good := false, afterIndex := found, rest }

/-- Read a width. -/
def Scan.width (s : Scan) : Scan :=
  match s.rest with
  | '*' :: rest =>
    { s with written := s.written ++ "%!(BADWIDTH)".toList, afterIndex := false, rest }
  | rest =>
    let (found, rest) := skipNumber rest
    { s with good := s.good && !(s.afterIndex && found), rest }

/-- Read a precision. -/
def Scan.precision (s : Scan) : Scan :=
  match s.rest with
  | '.' :: rest =>
    let s := { s with good := s.good && !s.afterIndex, rest }.index
    match s.rest with
    | '*' :: rest =>
      { s with written := s.written ++ "%!(BADPREC)".toList, afterIndex := false, rest }
    | rest => { s with rest := (skipNumber rest).2 }
  | _ => s

/-- What a directive after its percent sign stands for, and what follows it. -/
def expandOne (cs : List Char) : List Char × List Char :=
  let s : Scan := { rest := cs.dropWhile isFlag }
  let s := s.index.width.precision
  let s := if s.afterIndex then s else s.index
  match s.rest with
  | [] => (s.written ++ "%!(NOVERB)".toList, [])
  | '%' :: rest => (s.written ++ ['%'], rest)
  | c :: rest =>
    let note := if s.good then "(MISSING)" else "(BADINDEX)"
    (s.written ++ '%' :: '!' :: c :: note.toList, rest)

/-- Expand directives.  The number of characters is enough `fuel`. -/
def expandFrom : (fuel : Nat) → List Char → List Char
  | 0, cs => cs
  | _ + 1, [] => []
  | fuel + 1, c :: cs =>
    if c == '%' then
      let (text, rest) := expandOne cs
      text ++ expandFrom fuel rest
    else c :: expandFrom fuel cs

/-- Replace every directive of a text. -/
def expand (s : String) : String :=
  String.ofList (expandFrom (s.length + 1) s.toList)

end StackLang.Text.Directive

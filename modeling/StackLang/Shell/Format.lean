import StackLang.Shell.Number

/-!
# Formatted text

Text with escapes, and formats with directives that take arguments.  A format is used again while
arguments are left.
-/

set_option autoImplicit false

namespace StackLang.Shell

/-! ## Escapes -/

/-- The character that a letter stands for after a backslash. -/
def escapeOf? : Char → Option Char
  | 'a' => some '\x07'
  | 'b' => some '\x08'
  | 'e' => some '\x1b'
  | 'f' => some '\x0c'
  | 'n' => some '\n'
  | 'r' => some '\r'
  | 't' => some '\t'
  | 'v' => some '\x0b'
  | '\\' => some '\\'
  | _ => none

/-- The octet with a value. -/
def octetOf (n : Nat) : Char := Char.ofNat (n % 256)

/-- The octal digits at the start, three at most. -/
def octalDigits (cs : List Char) : List Char := (cs.take 3).takeWhile (isDigitOf 8)

/-- What a backslash in front of a text makes of it: a character, and how many characters of the
text it takes. -/
def escapeHead (cs : List Char) : Char × Nat :=
  let octal := octalDigits cs
  if !octal.isEmpty then (octetOf (digitsValue 8 octal), octal.length)
  else
    match cs.head?.bind escapeOf? with
    | some c => (c, 1)
    | none => ('\\', 0)

/-- A text with its escapes replaced, where octal digits may have a zero in front.  The flag says
whether an escape asked to stop. -/
def unescape (cs : List Char) : List Char × Bool :=
  match cs with
  | [] => ([], false)
  | '\\' :: 'c' :: _ => ([], true)
  | '\\' :: '0' :: rest =>
    let octal := octalDigits rest
    let (more, stop) := unescape (rest.drop octal.length)
    (octetOf (digitsValue 8 octal) :: more, stop)
  | '\\' :: rest =>
    let (c, n) := escapeHead rest
    let (more, stop) := unescape (rest.drop n)
    (c :: more, stop)
  | c :: rest =>
    let (more, stop) := unescape rest
    (c :: more, stop)
termination_by cs.length
decreasing_by all_goals simp only [List.length_cons, List.length_drop]; omega

/-- What the command that repeats its arguments writes. -/
def echo (args : List String) : String :=
  let (line, args) := match args with
    | "-n" :: rest => (false, rest)
    | _ => (true, args)
  String.ofList (go line args)
where
  /-- The arguments with blanks between them, up to one that asks to stop. -/
  go (line : Bool) : List String → List Char
    | [] => if line then ['\n'] else []
    | arg :: rest =>
      let (cs, stop) := unescape arg.toList
      if stop then cs
      else if rest.isEmpty then cs ++ (if line then ['\n'] else [])
      else cs ++ ' ' :: go line rest

/-! ## Directives -/

/-- A directive of a format. -/
structure Directive where
  left : Bool := false
  plus : Bool := false
  space : Bool := false
  alternate : Bool := false
  zero : Bool := false
  width : Nat := 0
  precision : Option Nat := none
  letter : Char := 's'

namespace Directive

/-- Characters filled up to the width. -/
def pad (d : Directive) (cs : List Char) : List Char :=
  let fill := List.replicate (d.width - cs.length) ' '
  if d.left then cs ++ fill else fill ++ cs

/-- Digits behind a sign or mark, filled up to the width, with zeros if these are asked for. -/
def padNumber (d : Directive) (zeros : Bool) (mark digits : List Char) : List Char :=
  if zeros && d.zero && !d.left then
    mark ++ List.replicate (d.width - mark.length - digits.length) '0' ++ digits
  else d.pad (mark ++ digits)

/-- The sign of a number. -/
def sign (d : Directive) (negative : Bool) : List Char :=
  if negative then ['-'] else if d.plus then ['+'] else if d.space then [' '] else []

/-- Digits with zeros in front up to the precision.  Zero has no digits at precision zero. -/
def precise (d : Directive) (n : Nat) (digits : List Char) : List Char :=
  match d.precision with
  | none => digits
  | some p => if p = 0 && n = 0 then [] else List.replicate (p - digits.length) '0' ++ digits

/-- A number with a sign. -/
def signed (d : Directive) (n : Int) : List Char :=
  d.padNumber d.precision.isNone (d.sign (n < 0))
    (d.precise n.natAbs (toString n.natAbs).toList)

/-- A number without a sign, in the base that the letter of the directive says. -/
def unsigned (d : Directive) (n : Nat) : List Char :=
  let upper (cs : List Char) := if d.letter == 'X' then cs.map Char.toUpper else cs
  let base := if d.letter == 'o' then 8 else if d.letter == 'u' then 10 else 16
  let digits := d.precise n (upper (Nat.toDigits base n))
  if base = 8 && d.alternate && digits.head? != some '0' then
    d.padNumber d.precision.isNone [] ('0' :: digits)
  else if base = 16 && d.alternate && n ≠ 0 then
    d.padNumber d.precision.isNone (upper ['0', 'x']) digits
  else d.padNumber d.precision.isNone [] digits

/-- A text, cut at the precision. -/
def text (d : Directive) (cs : List Char) : List Char :=
  d.pad (match d.precision with
    | some p => cs.take p
    | none => cs)

/-! ## Fractions -/

/-- A number with places behind the point.  A point without places is only written if asked for. -/
def positional (d : Directive) (x : Decimal.Binary) (places : Nat) : List Char :=
  (x.nearest (-(places : Int))).positional ++
    (if places = 0 && d.alternate then ['.'] else [])

/-- The decimal with so many digits that is nearest to a number, and the exponent of its first
digit. -/
def rounded (x : Decimal.Binary) (digits : Nat) : Nat × Int :=
  if x.mantissa = 0 then (0, 0)
  else
    let e := x.leading 700 310
    let n := (x.nearest (e - (digits - 1 : Nat))).digits
    if n < Nat.pow 10 digits then (n, e) else (n / 10, e + 1)

/-- A number with one digit in front of the point and an exponent. -/
def scientific (d : Directive) (x : Decimal.Binary) (places : Nat) : List Char :=
  let (n, e) := rounded x (places + 1)
  let digits := (toString n).toList
  let digits := digits ++ List.replicate (places + 1 - digits.length) '0'
  let point := if places = 0 && !d.alternate then [] else ['.']
  let written := (toString e.natAbs).toList
  digits.take 1 ++ point ++ digits.drop 1 ++ ['e', if e < 0 then '-' else '+'] ++
    List.replicate (2 - written.length) '0' ++ written

/-- Drop the zeros at the end of the places behind a point, and the point if nothing is left
behind it. -/
def dropZeros (cs : List Char) : List Char :=
  let mantissa := cs.takeWhile (· != 'e')
  let rest := cs.drop mantissa.length
  let kept := if mantissa.contains '.' then
      let stripped := mantissa.reverse.dropWhile (· == '0')
      (if stripped.head? == some '.' then stripped.drop 1 else stripped).reverse
    else mantissa
  kept ++ rest

/-- A number in the shorter of the two forms. -/
def general (d : Directive) (x : Decimal.Binary) (precision : Nat) : List Char :=
  let p := max precision 1
  let (_, e) := rounded x p
  let cs := if -4 ≤ e && e < p then d.positional x ((p : Int) - 1 - e).toNat
    else d.scientific x (p - 1)
  if d.alternate then cs else dropZeros cs

/-- A number in hexadecimal digits. -/
def hexadecimal (d : Directive) (x : Decimal.Binary) : List Char :=
  let normal := 0x10000000000000 ≤ x.mantissa
  let lead := if normal then 1 else 0
  let fraction := x.mantissa % 0x10000000000000
  let e : Int := if x.mantissa = 0 then 0 else x.exponent + 52
  let all := (Nat.toDigits 16 (0x10000000000000 + fraction)).drop 1
  let (lead, digits) : Nat × List Char := match d.precision with
    | none => (lead, (all.reverse.dropWhile (· == '0')).reverse)
    | some p =>
      if 13 ≤ p then (lead, all ++ List.replicate (p - 13) '0')
      else
        let unit := Nat.pow 16 (13 - p)
        let q := (lead * 0x10000000000000 + fraction) / unit
        let r := (lead * 0x10000000000000 + fraction) % unit
        let q := if unit < 2 * r || (unit = 2 * r && q % 2 = 1) then q + 1 else q
        (q / Nat.pow 16 p, (Nat.toDigits 16 (Nat.pow 16 p + q % Nat.pow 16 p)).drop 1)
  let point := if digits.isEmpty && !d.alternate then [] else ['.']
  (toString lead).toList ++ point ++ digits ++ ['p', if e < 0 then '-' else '+'] ++
    (toString e.natAbs).toList

/-- A number with a fraction. -/
def fraction (d : Directive) (x : Float) : List Char :=
  let upper (cs : List Char) := if d.letter.isUpper then cs.map Char.toUpper else cs
  let negative := x.toBits.toNat / 0x8000000000000000 = 1
  let sign := d.sign negative
  if x.isNaN then d.padNumber false sign (upper ['n', 'a', 'n'])
  else if x.isInf then d.padNumber false sign (upper ['i', 'n', 'f'])
  else
    let b := Decimal.Binary.ofBits x.toBits
    let p := d.precision.getD 6
    match d.letter.toLower with
    | 'f' => d.padNumber true sign (d.positional b p)
    | 'e' => d.padNumber true sign (upper (d.scientific b p))
    | 'g' => d.padNumber true sign (upper (d.general b p))
    | _ => d.padNumber true (sign ++ upper ['0', 'x']) (upper (d.hexadecimal b))

end Directive

/-! ## Formats -/

/-- What a format has made so far. -/
structure Formatting where
  /-- The text, in reverse. -/
  text : List Char := []
  args : List String
  /-- Complaints about arguments, in reverse. -/
  complaints : List String := []
  /-- Why the format cannot be used any further. -/
  failure : Option String := none
  stopped : Bool := false

namespace Formatting

/-- Add text. -/
def put (f : Formatting) (cs : List Char) : Formatting := { f with text := cs.reverse ++ f.text }

/-- The next argument. -/
def next (f : Formatting) : Option String × Formatting :=
  (f.args.head?, { f with args := f.args.drop 1 })

/-- Complain about an argument that is not a number throughout. -/
def check (f : Formatting) (arg : String) (missing outOfRange : Bool) (rest : List Char) :
    Formatting :=
  let complain (text : String) := { f with complaints := (arg ++ ": " ++ text) :: f.complaints }
  if !rest.isEmpty then
    complain (if missing then "expected numeric value" else "not completely converted")
  else if outOfRange then complain "Numerical result out of range"
  else f

/-- The value of an argument that is a quote and a character. -/
def quotedValue? (arg : String) : Option Nat :=
  match arg.toList with
  | q :: rest => if q == '"' || q == '\'' then some (rest.headD '\x00').toNat else none
  | [] => none

/-- The next argument as a number with a sign. -/
def nextSigned (f : Formatting) : Int × Formatting :=
  match f.next with
  | (none, f) => (0, f)
  | (some arg, f) =>
    match quotedValue? arg with
    | some n => (n, f)
    | none =>
      let n := readNumeral true arg.toList
      (n.signed.1, f.check arg n.missing n.signed.2 n.rest)

/-- The next argument as a number without a sign. -/
def nextUnsigned (f : Formatting) : Nat × Formatting :=
  match f.next with
  | (none, f) => (0, f)
  | (some arg, f) =>
    match quotedValue? arg with
    | some n => (n, f)
    | none =>
      let n := readNumeral true arg.toList
      (n.unsigned.1, f.check arg n.missing n.unsigned.2 n.rest)

/-- The next argument as a number with a fraction. -/
def nextFractional (f : Formatting) : Float × Formatting :=
  match f.next with
  | (none, f) => (0, f)
  | (some arg, f) =>
    match quotedValue? arg with
    | some n => (Float.ofNat n, f)
    | none =>
      let x := readFractional arg.toList
      (x.value, f.check arg x.missing x.outOfRange x.rest)

/-- Carry out a directive, which is written as `source`. -/
def directive (f : Formatting) (d : Directive) (source : List Char) : Formatting :=
  match d.letter with
  | 's' =>
    let (arg, f) := f.next
    f.put (d.text (arg.getD "").toList)
  | 'b' =>
    let (arg, f) := f.next
    let (cs, stop) := unescape (arg.getD "").toList
    { f.put (d.text cs) with stopped := stop }
  | 'c' =>
    let (arg, f) := f.next
    f.put (d.pad [(arg.getD "").toList.headD '\x00'])
  | c =>
    if c == 'd' || c == 'i' then
      let (n, f) := f.nextSigned
      f.put (d.signed n)
    else if ['o', 'u', 'x', 'X'].contains c then
      let (n, f) := f.nextUnsigned
      f.put (d.unsigned n)
    else if ['a', 'A', 'e', 'E', 'f', 'F', 'g', 'G'].contains c then
      let (x, f) := f.nextFractional
      f.put (d.fraction x)
    else { f with failure := some (String.ofList source ++ ": invalid directive") }

/-- A number in a directive, or an argument in its place; the rest of the format. -/
def size (f : Formatting) (cs : List Char) : Option Int × List Char × Formatting :=
  match cs with
  | '*' :: rest =>
    let (n, f) := f.nextSigned
    (some n, rest, f)
  | cs =>
    let digits := cs.takeWhile isDigit
    (if digits.isEmpty then none else some (digitsValue 10 digits), cs.drop digits.length, f)
where
  /-- Whether a character is a digit. -/
  isDigit (c : Char) : Bool := isDigitOf 10 c

/-- Carry out the directive whose percent sign has been taken; the rest of the format. -/
def takeDirective (f : Formatting) (cs : List Char) : List Char × Formatting :=
  let flags := cs.takeWhile fun c => ['#', '-', '+', ' ', '0'].contains c
  let (width, rest, f) := f.size (cs.drop flags.length)
  let (precision, rest, f) := match rest with
    | '.' :: rest =>
      let (p, rest, f) := f.size rest
      (some (p.getD 0), rest, f)
    | rest => (none, rest, f)
  match rest with
  | [] => ([], { f with failure := some "missing format character" })
  | letter :: rest =>
    let width := width.getD 0
    let d : Directive :=
      { left := flags.contains '-' || width < 0, plus := flags.contains '+',
        space := flags.contains ' ', alternate := flags.contains '#',
        zero := flags.contains '0', width := width.natAbs,
        precision := precision.bind fun p => if p < 0 then none else some p.toNat, letter }
    (rest, f.directive d ('%' :: cs.take (cs.length - rest.length)))

/-- Use a format once. -/
def once (f : Formatting) : (fuel : Nat) → List Char → Formatting
  | 0, _ => f
  | _, [] => f
  | n + 1, '\\' :: rest =>
    let (c, k) := escapeHead rest
    (f.put [c]).once n (rest.drop k)
  | n + 1, '%' :: '%' :: rest => (f.put ['%']).once n rest
  | n + 1, '%' :: rest =>
    let (rest, f) := f.takeDirective rest
    if f.failure.isSome || f.stopped then f else f.once n rest
  | n + 1, c :: rest => (f.put [c]).once n rest

/-- Use a format while arguments are left and it takes some. -/
def all (format : List Char) : (fuel : Nat) → Formatting → Formatting
  | 0, f => f
  | n + 1, f =>
    let g := f.once (format.length + 1) format
    if g.failure.isSome || g.stopped || g.args.isEmpty || g.args.length == f.args.length then g
    else all format n g

end Formatting

/-- What a format makes of arguments. -/
def formatted (format : String) (args : List String) : Formatting :=
  Formatting.all format.toList (args.length + 1) { args }

end StackLang.Shell

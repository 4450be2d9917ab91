import StackLang.Literal
import StackLang.Text.Utf8
import StackLang.Yaml.Scalar

/-!
# Tags and directives

A tag names the type of a node.  It is written in full between angle brackets, or as a handle and
a suffix, where the handle stands for the start of the name.  The handle `!!` stands for the
standard types and `!` for itself; directives in front of a document give handles a meaning.
-/

set_option autoImplicit false

namespace StackLang.Yaml

/-- The characters of the name of an anchor or a handle. -/
def isNameChar (c : Char) : Bool :=
  c.isAlphanum || c == '_' || c == '-'

/-- The characters of a tag. -/
def isTagChar (c : Char) : Bool :=
  isNameChar c || [';', '/', '?', ':', '@', '&', '=', '+', '$', ',', '.', '!', '~', '*', '\'',
    '(', ')', '[', ']', '%'].contains c

/-- How many octets a sequence has that starts with `octet`; 0 if none does. -/
def sequenceLength (octet : UInt8) : Nat :=
  if octet < 0x80 then 1
  else if octet < 0xC0 then 0
  else if octet < 0xE0 then 2
  else if octet < 0xF0 then 3
  else if octet < 0xF8 then 4
  else 0

/-- The text of a tag, in which octets are written as a percent sign and two digits.  `left` octets
of a sequence are to come and `octets` have been read of it. -/
def percentDecodedFrom (left : Nat) (octets : List UInt8) : List Char → Option (List Char)
  | [] => if left = 0 then some [] else none
  | '%' :: a :: b :: rest => do
    let octet := UInt8.ofNat ((← hexValue? a) * 16 + (← hexValue? b))
    let left ←
      if left = 0 then
        if sequenceLength octet = 0 then none else some (sequenceLength octet - 1)
      else if Text.isContinuation octet then some (left - 1)
      else none
    let octets := octets ++ [octet]
    if left = 0 then return Text.decode octets ++ (← percentDecodedFrom 0 [] rest)
    else percentDecodedFrom left octets rest
  | c :: rest => do
    if c == '%' || left != 0 then none
    return c :: (← percentDecodedFrom 0 [] rest)

/-- The text of a tag, in which octets are written as a percent sign and two digits. -/
def percentDecoded (cs : List Char) : Option (List Char) := percentDecodedFrom 0 [] cs

/-- What a long tag of the standard types starts with. -/
def standardTagStem : List Char := "tag:yaml.org,2002:".toList

/-- A tag in its short form.  The tag `!` says nothing. -/
def shortTag? (tag : List Char) : Option String :=
  if tag == ['!'] then none
  else if standardTagStem.isPrefixOf tag then
    some (String.ofList ('!' :: '!' :: tag.drop standardTagStem.length))
  else some (String.ofList tag)

/-- What the handles of tags stand for, by the handle with its exclamation marks. -/
abbrev Handles := List (List Char × List Char)

/-- The handles that need no directive. -/
def standardHandles : Handles := [(['!'], ['!']), (['!', '!'], standardTagStem)]

/-- A tag as it is written: the handle, if there is one, and the rest. -/
structure Tag where
  handle : List Char
  suffix : List Char
  deriving DecidableEq, Repr

/-- The name that a tag stands for, unless its handle has no meaning. -/
def Tag.name? (tag : Tag) (handles : Handles) : Option (List Char) :=
  if tag.handle.isEmpty then some tag.suffix
  else (handles.lookup tag.handle).map (· ++ tag.suffix)

/-- A tag whose exclamation mark is at the cursor, and the position after it. -/
def Tag.read (c : Cursor) : Option (Tag × Cursor) := do
  match c.rest with
  | '!' :: '<' :: rest =>
    let name := rest.takeWhile isTagChar
    let after := c.skipMany (2 + name.length)
    if name.isEmpty || after.peek? != some '>' || !atGap after.skip.rest then none
    return (⟨[], ← percentDecoded name⟩, after.skip)
  | '!' :: rest =>
    let word := rest.takeWhile isNameChar
    if (rest.drop word.length).head? == some '!' then
      let suffix := (rest.drop (word.length + 1)).takeWhile isTagChar
      let after := c.skipMany (word.length + 2 + suffix.length)
      if suffix.isEmpty || !atGap after.rest then none
      return (⟨'!' :: word ++ ['!'], ← percentDecoded suffix⟩, after)
    else
      let suffix := rest.takeWhile isTagChar
      let after := c.skipMany (1 + suffix.length)
      if !atGap after.rest then none
      if suffix.isEmpty then return (⟨[], ['!']⟩, after)
      else return (⟨['!'], ← percentDecoded suffix⟩, after)
  | _ => none

/-! ## Directives -/

/-- A line in front of a document that says how to read it. -/
inductive Directive where
  | version (major minor : Nat)
  | handle (name stem : List Char)
  deriving DecidableEq, Repr

/-- The handle at the start of the text, and what follows it: an exclamation mark, or a word
between two of them. -/
def handleName (cs : List Char) : Option (List Char × List Char) :=
  match cs with
  | '!' :: rest =>
    let word := rest.takeWhile isNameChar
    match rest.drop word.length with
    | '!' :: after => some ('!' :: word ++ ['!'], after)
    | after => if word.isEmpty then some (['!'], after) else none
  | _ => none

/-- Whether nothing but blanks and a comment is left of a line. -/
def endsLine (cs : List Char) : Bool :=
  match cs.dropWhile isBlank with
  | [] => true
  | c :: _ => c == '#'

/-- The version number at the start of the text, of at most two digits, and what follows it. -/
def versionNumber (cs : List Char) : Option (Nat × List Char) :=
  let digits := cs.takeWhile Literal.isDigit
  if digits.isEmpty || digits.length > 2 then none
  else some (Nat.ofDigitChars 10 digits 0, cs.drop digits.length)

/-- Read a line as a directive. -/
def Directive.ofLine? (line : List Char) : Option Directive := do
  let name := (line.drop 1).takeWhile isNameChar
  let rest := line.drop (1 + name.length)
  if !atGap rest then none
  let rest := rest.dropWhile isBlank
  match String.ofList name with
  | "YAML" =>
    let (major, rest) ← versionNumber rest
    if rest.head? != some '.' then none
    let (minor, rest) ← versionNumber rest.tail
    if endsLine rest then return .version major minor else none
  | "TAG" =>
    let (mark, rest) ← handleName rest
    if !(rest.head?.any isBlank) then none
    let rest := rest.dropWhile isBlank
    let stem := rest.takeWhile isTagChar
    let rest := rest.drop stem.length
    if stem.isEmpty || !atGap rest || !endsLine rest then none
    let stem ← percentDecoded stem
    return .handle mark stem
  | _ => none

end StackLang.Yaml

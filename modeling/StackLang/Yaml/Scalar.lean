import StackLang.Yaml.Cursor

/-!
# The text of scalars

A scalar is written plain, between single or double quotes, or as an indented block.  The four
readers return the value of the scalar and the position after it; for a plain scalar that position
is after the blanks and line ends that follow.
-/

set_option autoImplicit false

namespace StackLang.Yaml

/-! ## Folding

Inside a plain or quoted scalar, blanks around a line end do not count, a single line end stands
for a space, and of more than one all but the first are kept. -/

/-- A scalar under construction. -/
structure Fold where
  /-- What has been read, in reverse. -/
  text : List Char := []
  /-- The blanks read since on the same line, in reverse. -/
  blanks : List Char := []
  /-- Whether a line end has been read since. -/
  broken : Bool := false
  /-- The first line end read since. -/
  firstBreak : Option Char := none
  /-- The further line ends, in reverse. -/
  moreBreaks : List Char := []

namespace Fold

/-- Read a blank. -/
def blank (f : Fold) (c : Char) : Fold :=
  if f.broken then f else { f with blanks := c :: f.blanks }

/-- Read a line end. -/
def lineEnd (f : Fold) (c : Char) : Fold :=
  if f.broken then { f with moreBreaks := breakValue c :: f.moreBreaks }
  else { f with blanks := [], broken := true, firstBreak := some (breakValue c) }

/-- Settle the blanks and line ends that were read. -/
def join (f : Fold) : Fold :=
  if f.broken then
    match f.firstBreak with
    | some '\n' =>
      if f.moreBreaks.isEmpty then { text := ' ' :: f.text }
      else { text := f.moreBreaks ++ f.text }
    | some c => { text := f.moreBreaks ++ c :: f.text }
    | none => { text := f.moreBreaks ++ f.text }
  else { text := f.blanks ++ f.text }

/-- Read a character of the value. -/
def put (f : Fold) (c : Char) : Fold :=
  let g := f.join
  { g with text := c :: g.text }

/-- The value of what has been read, without blanks and line ends at the end. -/
def value (f : Fold) : String := String.ofList f.text.reverse

end Fold

/-! ## Plain scalars -/

/-- The characters that end a plain scalar between brackets. -/
def isFlowIndicator (c : Char) : Bool :=
  c == ',' || c == '?' || c == '[' || c == ']' || c == '{' || c == '}'

/-- Read a plain scalar.  After a line end, outside brackets, it goes on only in column `indent`
or further to the right.  `gap` says whether the last character read was a blank or a line end.
The result is refused if a tab stands where indentation has to. -/
def plainFrom (inFlow : Bool) (indent : Nat) (gap : Bool) (f : Fold) (line col index : Nat) :
    List Char → Option (Fold × Cursor)
  | [] => some (f, ⟨[], line, col, index⟩)
  | c :: rest =>
    if isBlank c then
      if f.broken && decide (col < indent) && c == '\t' then none
      else plainFrom inFlow indent true (f.blank c) line (col + 1) (index + 1) rest
    else if isBreak c then
      if c == '\r' && rest.head? == some '\n' then
        plainFrom inFlow indent true f line (col + 1) (index + 1) rest
      else plainFrom inFlow indent true (f.lineEnd c) (line + 1) 0 (index + 1) rest
    else
      let here : Cursor := ⟨c :: rest, line, col, index⟩
      if gap && ((!inFlow && decide (col < indent)) || here.atMarker || c == '#') then
        some (f, here)
      else if (c == ':' && atGap rest) || (inFlow && isFlowIndicator c) then some (f, here)
      else plainFrom inFlow indent false (f.put c) line (col + 1) (index + 1) rest

/-- A plain scalar that starts at the cursor, the position after it, and whether a line end was
read with it. -/
def plain (inFlow : Bool) (indent : Nat) (c : Cursor) : Option (String × Cursor × Bool) :=
  (plainFrom inFlow indent false {} c.line c.col c.index c.rest).map
    fun (f, after) => (f.value, after, f.broken)

/-! ## Quoted scalars -/

/-- Read a single-quoted scalar after its opening quote. -/
def singleQuotedFrom (f : Fold) (line col index : Nat) : List Char → Option (String × Cursor)
  | [] => none
  | '\'' :: '\'' :: rest => singleQuotedFrom (f.put '\'') line (col + 2) (index + 2) rest
  | c :: rest =>
    if isBlank c then singleQuotedFrom (f.blank c) line (col + 1) (index + 1) rest
    else if isBreak c then
      if c == '\r' && rest.head? == some '\n' then
        singleQuotedFrom f line (col + 1) (index + 1) rest
      else singleQuotedFrom (f.lineEnd c) (line + 1) 0 (index + 1) rest
    else if (Cursor.mk (c :: rest) line col index).atMarker then none
    else if c == '\'' then some (f.join.value, ⟨rest, line, col + 1, index + 1⟩)
    else singleQuotedFrom (f.put c) line (col + 1) (index + 1) rest

/-- The value of a hexadecimal digit. -/
def hexValue? (c : Char) : Option Nat :=
  let n := c.toNat
  if 0x30 ≤ n && n ≤ 0x39 then some (n - 0x30)
  else if 0x41 ≤ n && n ≤ 0x46 then some (n - 0x37)
  else if 0x61 ≤ n && n ≤ 0x66 then some (n - 0x57)
  else none

/-- What follows a backslash in a double-quoted scalar. -/
inductive Escape where
  /-- The escape is complete and stands for a character. -/
  | char (c : Char)
  /-- So many hexadecimal digits follow. -/
  | code (digits : Nat)

/-- The meaning of the character after a backslash. -/
def escape? : Char → Option Escape
  | '0' => some (.char (Char.ofNat 0))
  | 'a' => some (.char (Char.ofNat 0x07))
  | 'b' => some (.char (Char.ofNat 0x08))
  | 't' => some (.char '\t')
  | '\t' => some (.char '\t')
  | 'n' => some (.char '\n')
  | 'v' => some (.char (Char.ofNat 0x0B))
  | 'f' => some (.char (Char.ofNat 0x0C))
  | 'r' => some (.char '\r')
  | 'e' => some (.char (Char.ofNat 0x1B))
  | ' ' => some (.char ' ')
  | '"' => some (.char '"')
  | '\'' => some (.char '\'')
  | '\\' => some (.char '\\')
  | 'N' => some (.char (Char.ofNat 0x85))
  | '_' => some (.char (Char.ofNat 0xA0))
  | 'L' => some (.char (Char.ofNat 0x2028))
  | 'P' => some (.char (Char.ofNat 0x2029))
  | 'x' => some (.code 2)
  | 'u' => some (.code 4)
  | 'U' => some (.code 8)
  | _ => none

/-- Where a double-quoted scalar is being read. -/
inductive Quoting where
  /-- Between characters. -/
  | text
  /-- After a backslash. -/
  | escape
  /-- After a backslash and a line end that may have another character. -/
  | joined
  /-- Inside the digits of an escape: how many are to come, and the value of those read. -/
  | digits (left : Nat) (value : Nat)

/-- Whether `n` is a code point. -/
def isCodePoint (n : Nat) : Bool := n < 0xD800 || (0xDFFF < n && n ≤ 0x10FFFF)

/-- Read a double-quoted scalar after its opening quote. -/
def doubleQuotedFrom (q : Quoting) (f : Fold) (line col index : Nat) :
    List Char → Option (String × Cursor)
  | [] => none
  | c :: rest =>
    match q with
    | .digits left value =>
      match hexValue? c with
      | none => none
      | some d =>
        let value := value * 16 + d
        if left ≤ 1 then
          if isCodePoint value then
            doubleQuotedFrom .text (f.put (Char.ofNat value)) line (col + 1) (index + 1) rest
          else none
        else doubleQuotedFrom (.digits (left - 1) value) f line (col + 1) (index + 1) rest
    | .escape =>
      if isBreak c then
        if c == '\r' && rest.head? == some '\n' then
          doubleQuotedFrom .joined f line (col + 1) (index + 1) rest
        else
          let f := { f.join with broken := true }
          doubleQuotedFrom .text f (line + 1) 0 (index + 1) rest
      else
        match escape? c with
        | none => none
        | some (.char ch) => doubleQuotedFrom .text (f.put ch) line (col + 1) (index + 1) rest
        | some (.code n) => doubleQuotedFrom (.digits n 0) f line (col + 1) (index + 1) rest
    | .joined =>
      let f := { f.join with broken := true }
      doubleQuotedFrom .text f (line + 1) 0 (index + 1) rest
    | .text =>
      if isBlank c then doubleQuotedFrom .text (f.blank c) line (col + 1) (index + 1) rest
      else if isBreak c then
        if c == '\r' && rest.head? == some '\n' then
          doubleQuotedFrom .text f line (col + 1) (index + 1) rest
        else doubleQuotedFrom .text (f.lineEnd c) (line + 1) 0 (index + 1) rest
      else if (Cursor.mk (c :: rest) line col index).atMarker then none
      else if c == '"' then some (f.join.value, ⟨rest, line, col + 1, index + 1⟩)
      else if c == '\\' then doubleQuotedFrom .escape f line (col + 1) (index + 1) rest
      else doubleQuotedFrom .text (f.put c) line (col + 1) (index + 1) rest

/-- A quoted scalar whose opening quote is at the cursor. -/
def quotedScalar (c : Cursor) : Option (String × Cursor) :=
  match c.rest with
  | '\'' :: rest => singleQuotedFrom {} c.line (c.col + 1) (c.index + 1) rest
  | '"' :: rest => doubleQuotedFrom .text {} c.line (c.col + 1) (c.index + 1) rest
  | _ => none

/-! ## Block scalars -/

/-- What happens to the line ends after the last line of a block. -/
inductive Chomp where
  /-- All are dropped. -/
  | strip
  /-- One is kept. -/
  | clip
  /-- All are kept. -/
  | keep
  deriving DecidableEq

/-- The line that opens a block scalar: how its end is treated, and its indentation if it is
given. -/
structure BlockHeader where
  chomp : Chomp := .clip
  indent : Option Nat := none

/-- A digit from 1 to 9. -/
def indentDigit? (c : Char) : Option Nat :=
  if '1' ≤ c && c ≤ '9' then some (c.toNat - 0x30) else none

/-- A chomping indicator. -/
def chomp? : Char → Option Chomp
  | '-' => some .strip
  | '+' => some .keep
  | _ => none

/-- Read the indicators after the bar or the angle, in either order. -/
def blockHeader (c : Cursor) : BlockHeader × Cursor :=
  match c.rest with
  | [] => ({}, c)
  | a :: rest =>
    match chomp? a with
    | some chomp =>
      match rest.head?.bind indentDigit? with
      | some n => ({ chomp := chomp, indent := some n }, c.skipMany 2)
      | none => ({ chomp := chomp }, c.skip)
    | none =>
      match indentDigit? a with
      | none => ({}, c)
      | some n =>
        match rest.head?.bind chomp? with
        | some chomp => ({ chomp := chomp, indent := some n }, c.skipMany 2)
        | none => ({ indent := some n }, c.skip)

/-- Go to the end of a line that holds only blanks and perhaps a comment, and past its end. -/
def skipHeaderLine (inComment : Bool) (line col index : Nat) : List Char → Option Cursor
  | [] => some ⟨[], line, col, index⟩
  | c :: rest =>
    if isBreak c then
      if c == '\r' && rest.head? == some '\n' then
        skipHeaderLine inComment line (col + 1) (index + 1) rest
      else some ⟨rest, line + 1, 0, index + 1⟩
    else if inComment then skipHeaderLine true line (col + 1) (index + 1) rest
    else if isBlank c then skipHeaderLine false line (col + 1) (index + 1) rest
    else if c == '#' then skipHeaderLine true line (col + 1) (index + 1) rest
    else none

/-- Skip the indentation of the lines of a block and the line ends of its empty lines.  With an
`indent` of 0 the indentation is not known yet.  The result holds the line ends, in reverse, and
the widest indentation met; a tab in place of indentation is refused. -/
def blockBreaksFrom (indent widest : Nat) (breaks : List Char) (line col index : Nat) :
    List Char → Option (List Char × Nat × Cursor)
  | [] => some (breaks, max widest col, ⟨[], line, col, index⟩)
  | c :: rest =>
    let open? := indent == 0 || decide (col < indent)
    if open? && c == ' ' then
      blockBreaksFrom indent widest breaks line (col + 1) (index + 1) rest
    else if open? && c == '\t' then none
    else if isBreak c then
      if c == '\r' && rest.head? == some '\n' then
        blockBreaksFrom indent (max widest col) breaks line col (index + 1) rest
      else
        blockBreaksFrom indent (max widest col) (breakValue c :: breaks) (line + 1) 0 (index + 1)
          rest
    else some (breaks, max widest col, ⟨c :: rest, line, col, index⟩)

/-- The characters up to the end of the line, the line end as it appears in a value, and the
position after it. -/
def restOfLine (text : List Char) (line col index : Nat) :
    List Char → List Char × List Char × Cursor
  | [] => (text.reverse, [], ⟨[], line, col, index⟩)
  | c :: rest =>
    if isBreak c then
      if c == '\r' && rest.head? == some '\n' then
        restOfLine text line (col + 1) (index + 1) rest
      else (text.reverse, [breakValue c], ⟨rest, line + 1, 0, index + 1⟩)
    else restOfLine (c :: text) line (col + 1) (index + 1) rest

/-- A block scalar under construction. -/
structure BlockText where
  /-- What has been read, in reverse. -/
  text : List Char := []
  /-- The line end of the last line. -/
  lastBreak : List Char := []
  /-- The line ends of the empty lines after it, in reverse. -/
  breaks : List Char := []
  /-- Whether the last line starts with a blank. -/
  blankLine : Bool := false

/-- Read the lines of a block scalar that are indented by `indent`.  In a folded scalar a line end
between two lines that do not start with a blank stands for a space. -/
def blockLines (folded : Bool) (indent : Nat) : (fuel : Nat) → BlockText → Cursor →
    Option (BlockText × Cursor)
  | 0, b, c => some (b, c)
  | fuel + 1, b, c =>
    match c.rest with
    | [] => some (b, c)
    | ch :: _ =>
      if c.col != indent then some (b, c)
      else
        let blank := isBlank ch
        let joined :=
          if folded && !b.blankLine && !blank && b.lastBreak == ['\n'] then
            if b.breaks.isEmpty then [' '] else []
          else b.lastBreak
        let text := b.breaks ++ joined ++ b.text
        let (content, lastBreak, after) := restOfLine [] c.line c.col c.index c.rest
        match blockBreaksFrom indent 0 [] after.line after.col after.index after.rest with
        | none => none
        | some (breaks, _, next) =>
          blockLines folded indent fuel
            { text := content.reverse ++ text, lastBreak, breaks, blankLine := blank } next

/-- A block scalar whose indicator is at the cursor, inside a node indented by `parent` columns
(−1 at the top). -/
def blockScalar (parent : Int) (c : Cursor) : Option (String × Cursor) := do
  let folded := c.peek? == some '>'
  let (header, c) := blockHeader c.skip
  let c ← skipHeaderLine false c.line c.col c.index c.rest
  let given : Nat :=
    match header.indent with
    | none => 0
    | some n => if 0 ≤ parent then parent.toNat + n else n
  let (breaks, widest, c) ← blockBreaksFrom given 0 [] c.line c.col c.index c.rest
  let indent := if given = 0 then max (max widest (parent + 1).toNat) 1 else given
  let (b, c) ← blockLines folded indent (c.rest.length + 1) { breaks } c
  let tail :=
    match header.chomp with
    | .strip => []
    | .clip => b.lastBreak
    | .keep => b.breaks ++ b.lastBreak
  return (String.ofList (tail ++ b.text).reverse, c)

end StackLang.Yaml

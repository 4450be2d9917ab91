/-!
# Reading positions

A cursor is what is left of a text together with the line and the column it stands at.  Line ends
are the line feed, the carriage return, the two together, and the three Unicode line ends.
-/

set_option autoImplicit false

namespace StackLang.Yaml

/-- The characters that end a line. -/
def isBreak (c : Char) : Bool :=
  c == '\n' || c == '\r' || c.toNat == 0x85 || c.toNat == 0x2028 || c.toNat == 0x2029

/-- A space or a tab. -/
def isBlank (c : Char) : Bool := c == ' ' || c == '\t'

/-- The byte order mark. -/
def isMark (c : Char) : Bool := c.toNat == 0xFEFF

/-- A line end as it appears in a value: the line and paragraph separators are kept, all other
ends become line feeds. -/
def breakValue (c : Char) : Char :=
  if c.toNat == 0x2028 || c.toNat == 0x2029 then c else '\n'

/-- Whether `rest` is at a blank, at a line end or at the end of the text. -/
def atGap : List Char → Bool
  | [] => true
  | c :: _ => isBlank c || isBreak c

/-- A position in a text. -/
structure Cursor where
  rest : List Char
  line : Nat := 1
  col : Nat := 0
  /-- The number of characters before the position. -/
  index : Nat := 0
  deriving Repr, Inhabited

namespace Cursor

/-- The character at the position. -/
def peek? (c : Cursor) : Option Char := c.rest.head?

/-- Whether the text ends here. -/
def atEnd (c : Cursor) : Bool := c.rest.isEmpty

/-- One character further on the same line. -/
def skip (c : Cursor) : Cursor :=
  { c with rest := c.rest.tail, col := c.col + 1, index := c.index + 1 }

/-- `n` characters further on the same line. -/
def skipMany (c : Cursor) (n : Nat) : Cursor :=
  { c with rest := c.rest.drop n, col := c.col + n, index := c.index + n }

/-- At the start of the line after the line end `b`, of which `rest` is what follows.  A carriage
return in front of a line feed does not end the line by itself. -/
def newline (c : Cursor) (b : Char) (rest : List Char) : Cursor :=
  if b == '\r' && rest.head? == some '\n' then { c with rest := rest, index := c.index + 1 }
  else { rest := rest, line := c.line + 1, col := 0, index := c.index + 1 }

/-- Whether a line that starts here is a document marker: three dashes or three dots and a gap. -/
def atMarker (c : Cursor) : Bool :=
  c.col == 0 &&
    match c.rest with
    | '-' :: '-' :: '-' :: rest => atGap rest
    | '.' :: '.' :: '.' :: rest => atGap rest
    | _ => false

end Cursor

/-! ## Gaps

A gap is what stands between two tokens: blanks, line ends and comments. -/

/-- How far ahead a comment is looked for. -/
def commentReach : Nat := 512

/-- The characters between two comments that belong together. -/
def isBetweenComments (c : Char) : Bool := isBlank c || c == '\n' || c == '\r'

/-- Whether after a comment, which `c` and `rest` follow, nothing but blanks and line ends stands in
front of another one. -/
def commentFollows (c : Char) (rest : List Char) : Bool :=
  let between := rest.takeWhile isBetweenComments
  (c == '\n' || c == '\r') && decide (between.length + 1 < commentReach) &&
    rest[between.length]? == some '#'

/-- The parts of a gap. -/
inductive GapPart where
  | blanks
  | comment
  /-- Between two comments that belong together. -/
  | between
  deriving DecidableEq

/-- Skip a gap.  The flag `keyOk` says whether a key may stand here; a line end outside brackets
sets it.  Where a key may stand, a tab is no indentation and ends the gap, unless it stands between
two comments.  Within the first `window` characters one character is dropped at the start of each
line. -/
def gapFrom (inFlow keyOk : Bool) (window : Nat) (part : GapPart) (line col index : Nat) :
    List Char → Bool × Cursor
  | [] => (keyOk, ⟨[], line, col, index⟩)
  | c :: rest =>
    if part = .blanks && col == 0 && decide (index < window) then
      gapFrom inFlow keyOk window .blanks line (col + 1) (index + 1) rest
    else if isBreak c then
      let linked := part = .between || (part = .comment && commentFollows c rest)
      let part := if linked then GapPart.between else .blanks
      let keyOk := keyOk || (!inFlow && !linked)
      if c == '\r' && rest.head? == some '\n' then
        gapFrom inFlow keyOk window part line (col + 1) (index + 1) rest
      else gapFrom inFlow keyOk window part (line + 1) 0 (index + 1) rest
    else
      match part with
      | .comment => gapFrom inFlow keyOk window .comment line (col + 1) (index + 1) rest
      | .between =>
        gapFrom inFlow keyOk window (if c == '#' then .comment else .between) line (col + 1)
          (index + 1) rest
      | .blanks =>
        if c == ' ' || (c == '\t' && (inFlow || !keyOk)) then
          gapFrom inFlow keyOk window .blanks line (col + 1) (index + 1) rest
        else if c == '#' then gapFrom inFlow keyOk window .comment line (col + 1) (index + 1) rest
        else (keyOk, ⟨c :: rest, line, col, index⟩)

/-- Skip the gap at a cursor. -/
def skipGap (inFlow keyOk : Bool) (window : Nat) (c : Cursor) : Bool × Cursor :=
  gapFrom inFlow keyOk window .blanks c.line c.col c.index c.rest

/-- The position at the end of the line. -/
def Cursor.lineEnd (c : Cursor) : Cursor :=
  c.skipMany (c.rest.takeWhile fun x => !isBreak x).length

/-- Skip a comment on the rest of the line, if there is one behind blanks. -/
def Cursor.skipComment (c : Cursor) : Cursor :=
  let blanks := c.rest.takeWhile isBlank
  if blanks.length < commentReach && c.rest[blanks.length]? == some '#' then c.lineEnd else c

end StackLang.Yaml

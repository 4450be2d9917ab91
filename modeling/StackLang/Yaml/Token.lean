import StackLang.Yaml.Tag

/-!
# Tokens

A text is read as a list of tokens.  Brackets, commas, colons and the like are tokens as they
stand; blocks have no brackets of their own, so tokens that open and close them are put in where the
indentation changes.

A key that is not announced by `?` is only known as a key when its colon is met.  So every token
that may start a key is remembered, and the tokens that announce the key go in front of it later.
Such a key stands on one line, within 1024 characters of its colon.

Tokens are given away as soon as two more are known, unless they still may start a key.  What has
been given away stays in front of everything else.  A text that cannot be read to its end still has
the tokens that were given away in front of the fault.  `Token.scan` gives those, and only a text
that could be read has a last token.
-/

set_option autoImplicit false

namespace StackLang.Yaml

/-- A token. -/
inductive Token where
  /-- The end of the text. -/
  | finish
  | directive (d : Directive)
  | documentStart
  | documentEnd
  /-- The start of a sequence or a mapping that is told by its indentation, and the end of
  either. -/
  | blockSeq
  | blockMap
  | blockEnd
  | flowSeq
  | flowSeqEnd
  | flowMap
  | flowMapEnd
  /-- The dash of an item. -/
  | item
  | comma
  /-- The start of a key, with or without a question mark. -/
  | key
  | value
  | anchor (name : String)
  | reference (name : String)
  | tag (t : Tag)
  | scalar (quoted : Bool) (text : String)
  deriving DecidableEq, Repr

/-- A token and the line it starts on. -/
structure Lexeme where
  token : Token
  line : Nat
  deriving DecidableEq, Repr

/-- A token that may turn out to be the start of a key. -/
structure KeySpot where
  /-- How many tokens stand in front of it. -/
  number : Nat
  /-- Whether nothing else can stand there. -/
  required : Bool := false
  line : Nat := 0
  col : Nat := 0
  index : Nat := 0
  /-- Whether it still may start a key. -/
  isOpen : Bool := true
  /-- Whether the token is kept as long as it may start a key. -/
  isKept : Bool := true

/-- The number of characters within which the colon of a key has to stand. -/
def keyReach : Nat := 1024

/-- Whether the colon of a key may still stand at a position. -/
def KeySpot.reaches (k : KeySpot) (c : Cursor) : Bool :=
  k.line == c.line && c.index ≤ k.index + keyReach

/-- Whether the token at a spot is kept when a position has been reached. -/
def KeySpot.keeps (k : KeySpot) (c : Cursor) : Bool :=
  k.isOpen && k.isKept && (k.required || k.reaches c)

/-- How deep blocks and brackets may be nested. -/
def depthLimit : Nat := 10000

/-- What has been read of a text. -/
structure Scanner where
  at_ : Cursor
  /-- Whether the text goes on after its end with something that cannot be read. -/
  isCut : Bool := false
  /-- The number of characters at the start within which each line loses its first one. -/
  window : Nat := 0
  /-- The tokens, the last one first, and their number. -/
  tokens : List Lexeme := []
  count : Nat := 0
  /-- How many tokens are known to have been given away. -/
  given : Nat := 0
  /-- The columns of the open blocks, the innermost first. -/
  blocks : List Nat := []
  /-- Where a key may have started, between the innermost brackets. -/
  spot : KeySpot := { number := 0, isOpen := false }
  /-- The same around each pair of open brackets, the innermost first. -/
  outer : List KeySpot := []
  /-- Whether a key may start here. -/
  keyOk : Bool := true

namespace Scanner

/-- Whether brackets are open. -/
def inFlow (s : Scanner) : Bool := !s.outer.isEmpty

/-- The column of the innermost block, −1 if there is none. -/
def indent (s : Scanner) : Int :=
  match s.blocks with
  | [] => -1
  | col :: _ => col

/-- Add a token. -/
def push (s : Scanner) (token : Token) (line : Nat) : Scanner :=
  { s with tokens := ⟨token, line⟩ :: s.tokens, count := s.count + 1 }

/-- Put a token behind the first `number` ones, or behind all of them if not all of those that
would follow it are still there. -/
def insert (s : Scanner) (number : Nat) (token : Token) (line : Nat) : Scanner :=
  let after := if number < s.given then 0 else s.count - number
  { s with
    tokens := s.tokens.take after ++ ⟨token, line⟩ :: s.tokens.drop after, count := s.count + 1 }

/-- Add a token that stands at the cursor and goes up to `after`. -/
def take (s : Scanner) (token : Token) (after : Cursor) : Scanner :=
  { s.push token s.at_.line with at_ := after }

/-- Say whether a key may start after the last token. -/
def allowKey (s : Scanner) (keyOk : Bool) : Scanner := { s with keyOk }

/-! ## Blocks -/

/-- Close the blocks to the right of a column. -/
def closeBlocks (line : Nat) (col : Int) : List Nat → Scanner → Scanner
  | [], s => { s with blocks := [] }
  | block :: rest, s =>
    if col < block then closeBlocks line col rest (s.push .blockEnd line)
    else { s with blocks := block :: rest }

/-- Close the blocks to the right of a column, unless brackets are open. -/
def unroll (s : Scanner) (col : Int) : Scanner :=
  if s.inFlow then s else closeBlocks s.at_.line col s.blocks s

/-- Open a block in a column behind the first `number` tokens, if that is further to the right than
the innermost block and no brackets are open. -/
def roll (s : Scanner) (col number : Nat) (token : Token) (line : Nat) : Option Scanner :=
  if s.inFlow || decide ((col : Int) ≤ s.indent) then some s
  else if depthLimit ≤ s.blocks.length then none
  else some { s.insert number token line with blocks := col :: s.blocks }

/-! ## Keys -/

/-- Give up the key that may have started; one that is required cannot be given up. -/
def dropKey (s : Scanner) : Option Scanner :=
  if s.spot.isOpen && s.spot.required then none
  else some { s with spot := { s.spot with isOpen := false } }

/-- Remember the cursor as a place where a key may start. -/
def saveKey (s : Scanner) : Option Scanner :=
  if s.keyOk then do
    let required := !s.inFlow && s.indent == s.at_.col
    let s ← s.dropKey
    let c := s.at_
    return { s with
      spot := { number := s.count, required, line := c.line, col := c.col, index := c.index } }
  else some s

/-! ## Tokens one by one -/

/-- A document marker, or anything else that ends all blocks. -/
def endBlocks (s : Scanner) : Option Scanner := do
  let s ← (s.unroll (-1)).dropKey
  return s.allowKey false

/-- An opening bracket. -/
def openFlow (s : Scanner) (token : Token) : Option Scanner := do
  let s ← s.saveKey
  if depthLimit ≤ s.outer.length then none
  else
    return { (s.take token s.at_.skip).allowKey true with
      spot := { number := s.count, isOpen := false }, outer := s.spot :: s.outer }

/-- A closing bracket.  If no key may have started between the brackets, the opening one is not kept
any longer. -/
def closeFlow (s : Scanner) (token : Token) : Option Scanner := do
  let s ← s.dropKey
  let s := match s.outer with
    | [] => s
    | spot :: outer =>
      { s with spot := { spot with isKept := spot.isKept && spot.number != s.spot.number }, outer }
  return (s.take token s.at_.skip).allowKey false

/-- A comma. -/
def readComma (s : Scanner) : Option Scanner := do
  let s ← s.dropKey
  return (s.take .comma s.at_.skip).allowKey true

/-- The dash of an item. -/
def readItem (s : Scanner) : Option Scanner := do
  if !s.inFlow && !s.keyOk then none
  let s ← s.roll s.at_.col s.count .blockSeq s.at_.line
  let s ← s.dropKey
  return (s.take .item s.at_.skip).allowKey true

/-- A question mark. -/
def readKey (s : Scanner) : Option Scanner := do
  if !s.inFlow && !s.keyOk then none
  let s ← s.roll s.at_.col s.count .blockMap s.at_.line
  let s ← s.dropKey
  return (s.take .key s.at_.skip).allowKey !s.inFlow

/-- A colon: what is remembered as the possible start of a key is one, if the colon is within its
reach. -/
def readValue (s : Scanner) : Option Scanner := do
  let k := s.spot
  let closed := { k with isOpen := false }
  if k.isOpen && k.reaches s.at_ then
    let s := s.insert k.number .key k.line
    let s ← s.roll k.col k.number .blockMap k.line
    return { (s.take .value s.at_.skip).allowKey false with spot := closed }
  else if k.isOpen && k.required then none
  else later { s with spot := closed }
where
  /-- A colon after a key that is announced by a question mark. -/
  later (s : Scanner) : Option Scanner := do
    if !s.inFlow && !s.keyOk then none
    let s ← s.roll s.at_.col s.count .blockMap s.at_.line
    return (s.take .value s.at_.skip).allowKey !s.inFlow

/-- What may follow the name of an anchor. -/
def endsName : List Char → Bool
  | [] => true
  | c :: _ =>
    isBlank c || isBreak c || c == '?' || c == ':' || c == ',' || c == ']' || c == '}' ||
      c == '%' || c == '@' || c.toNat == 0x60

/-- An anchor or a reference, whose indicator is at the cursor. -/
def readName (s : Scanner) (token : String → Token) : Option Scanner := do
  let s ← s.saveKey
  let start := s.at_.skip
  let name := start.rest.takeWhile isNameChar
  let after := start.skipMany name.length
  if name.isEmpty || !endsName after.rest then none
  else return (s.take (token (String.ofList name)) after).allowKey false

/-- A tag. -/
def readTag (s : Scanner) : Option Scanner := do
  let s ← s.saveKey
  let (tag, after) ← Tag.read s.at_
  return (s.take (.tag tag) after).allowKey false

/-- A block scalar. -/
def readBlock (s : Scanner) : Option Scanner := do
  let s ← s.dropKey
  let (text, after) ← blockScalar s.indent s.at_
  return (s.take (.scalar true text) after).allowKey true

/-- A quoted scalar. -/
def readQuoted (s : Scanner) : Option Scanner := do
  let s ← s.saveKey
  let (text, after) ← quotedScalar s.at_
  return (s.take (.scalar true text) after).allowKey false

/-- A plain scalar.  If line ends were read with it, a key may start after it. -/
def readPlain (s : Scanner) : Option (Scanner × Bool) := do
  let s ← s.saveKey
  let (text, after, broken) ← plain s.inFlow (s.indent + 1).toNat s.at_
  return ((s.take (.scalar false text) after).allowKey broken, broken)

/-- The characters that start something other than a plain scalar. -/
def isIndicator (c : Char) : Bool :=
  [',', '[', ']', '{', '}', '#', '&', '*', '!', '|', '>', '\'', '"', '%', '@'].contains c ||
    c.toNat == 0x60

/-- Whether a plain scalar can start with `c` in front of `rest`. -/
def startsPlain (inFlow : Bool) (c : Char) (rest : List Char) : Bool :=
  if isBlank c || isBreak c || isIndicator c then false
  else if c == '-' then !(rest.head?.any isBlank)
  else if c == '?' || c == ':' then !inFlow && !atGap rest
  else true

/-- The token at the cursor, which starts with `c` in front of `rest`.  A comment on its line is
skipped with it, unless the token is a dash or reaches to another line. -/
def readToken (s : Scanner) (c : Char) (rest : List Char) : Option Scanner := do
  let (s, whole) ←
    if c == '[' then (s.openFlow .flowSeq).map (·, true)
    else if c == '{' then (s.openFlow .flowMap).map (·, true)
    else if c == ']' then (s.closeFlow .flowSeqEnd).map (·, true)
    else if c == '}' then (s.closeFlow .flowMapEnd).map (·, true)
    else if c == ',' then s.readComma.map (·, true)
    else if c == '-' && atGap rest then s.readItem.map (·, false)
    else if c == '?' && (s.inFlow || atGap rest) then s.readKey.map (·, true)
    else if c == ':' && (s.inFlow || atGap rest) then s.readValue.map (·, true)
    else if c == '*' then (s.readName .reference).map (·, true)
    else if c == '&' then (s.readName .anchor).map (·, true)
    else if c == '!' then s.readTag.map (·, true)
    else if (c == '|' || c == '>') && !s.inFlow then s.readBlock.map (·, false)
    else if c == '\'' || c == '"' then s.readQuoted.map (·, true)
    else if startsPlain s.inFlow c rest then s.readPlain.map fun (s, broken) => (s, !broken)
    else none
  return if whole then { s with at_ := s.at_.skipComment } else s

/-- A directive. -/
def readDirective (s : Scanner) : Option Scanner := do
  let s ← s.endBlocks
  let c := s.at_
  let (line, _, after) := restOfLine [] c.line c.col c.index c.rest
  let d ← Directive.ofLine? line
  return s.take (.directive d) after

/-- Read one more token.  Nothing is read from a text that does not go on for four characters
although it does not end there. -/
def next (s : Scanner) : Option Scanner := do
  let (keyOk, c) := skipGap s.inFlow s.keyOk s.window s.at_
  let s := { s with at_ := c, keyOk }.unroll c.col
  if s.isCut && (c.rest.drop 3).isEmpty then none
  let s := if s.window < c.index + 4 then { s with window := 0 } else s
  let s ←
    match c.rest with
    | [] => (s.endBlocks).map (·.push .finish c.line)
    | ch :: rest =>
      if c.col == 0 && ch == '%' then s.readDirective
      else if c.atMarker then
        s.endBlocks.map (·.take (if ch == '-' then .documentStart else .documentEnd) (c.skipMany 3))
      else s.readToken ch rest
  if s.isCut && s.at_.atEnd then none else return s

/-! ## Whole texts -/

/-- How many tokens have to be known behind one that is given away. -/
def lookahead : Nat := 2

/-- Give away the tokens that have enough others behind them, in front of the first that is kept
because it may start a key. -/
def giveAway (s : Scanner) : Scanner :=
  let kept := (s.spot :: s.outer).filter (·.keeps s.at_)
  let settled := kept.foldl (fun n k => min n k.number) (s.count - lookahead)
  { s with given := max s.given settled }

/-- The tokens from here on to the end of the text, or up to a fault.  As long as the last spot
keeps its token, nothing behind that token is given away, and nothing in front of it matters. -/
def run : (fuel : Nat) → Scanner → List Lexeme
  | 0, _ => []
  | fuel + 1, s =>
    match s.next with
    | none => (s.tokens.drop (s.count - s.giveAway.given)).reverse
    | some t =>
      match t.tokens with
      | ⟨.finish, _⟩ :: _ => t.tokens.reverse
      | _ => run fuel (if t.spot.isKept then t else t.giveAway)

end Scanner

/-! ## Readable texts -/

/-- The characters that may stand in a text. -/
def isAllowed (c : Char) : Bool :=
  let n := c.toNat
  n == 0x09 || n == 0x0A || n == 0x0D || (0x20 ≤ n && n ≤ 0x7E) || n == 0x85 ||
    (0xA0 ≤ n && n ≤ 0xD7FF) || (0xE000 ≤ n && n ≤ 0xFFFD) || (0x10000 ≤ n && n ≤ 0x10FFFF)

/-- How many octets of a text are read at a time. -/
def pieceSize : Nat := 512

/-- A character of a text in octets and how many octets it takes, or octets that are no character
and how many have to be read to find that out. -/
structure Sign where
  char? : Option Char
  size : Nat
  deriving DecidableEq, Repr

/-- A sequence that the end of the text cuts off fits into no piece. -/
def Sign.cutOff : Sign := ⟨none, pieceSize + 1⟩

/-- How many octets a sequence has whose first octet is this, as far as that says. -/
def declaredSize (a : UInt8) : Nat :=
  if 0xC0 ≤ a && a < 0xE0 then 2
  else if 0xE0 ≤ a && a < 0xF0 then 3
  else if 0xF0 ≤ a && a < 0xF8 then 4
  else 1

/-- The characters of UTF-8, up to octets that are none, behind so many octets. -/
def utf8Signs (skip : Nat) : List UInt8 → List Sign
  | [] => []
  | a :: rest =>
    match skip with
    | k + 1 => utf8Signs k rest
    | 0 =>
      let (c, more) := Text.decodeHead a rest
      if a < 0x80 || 0 < more then ⟨some c, more + 1⟩ :: utf8Signs more rest
      else if declaredSize a ≤ rest.length + 1 then [⟨none, declaredSize a⟩]
      else [.cutOff]

/-- The characters of UTF-16, up to octets that are none.  `unit` is the number that two octets
stand for. -/
def utf16Signs (unit : UInt8 → UInt8 → Nat) : List UInt8 → List Sign
  | [] => []
  | [_] => [.cutOff]
  | a :: b :: [] =>
    let n := unit a b
    if n < 0xD800 || 0xDFFF < n then [⟨some (Char.ofNat n), 2⟩]
    else if 0xDC00 ≤ n then [⟨none, 2⟩]
    else [.cutOff]
  | a :: b :: c :: rest =>
    let n := unit a b
    if n < 0xD800 || 0xDFFF < n then ⟨some (Char.ofNat n), 2⟩ :: utf16Signs unit (c :: rest)
    else if 0xDC00 ≤ n then [⟨none, 2⟩]
    else
      match rest with
      | [] => [.cutOff]
      | d :: rest =>
        let low := unit c d
        if 0xDC00 ≤ low && low ≤ 0xDFFF then
          let pair := 0x10000 + (n - 0xD800) * 0x400 + (low - 0xDC00)
          ⟨some (Char.ofNat pair), 4⟩ :: utf16Signs unit rest
        else [⟨none, 4⟩]

/-- The number of octets of the byte order mark in front of a text, and the characters behind it. -/
def signsOf : List UInt8 → Nat × List Sign
  | 0xFF :: 0xFE :: rest => (2, utf16Signs (fun a b => a.toNat + 0x100 * b.toNat) rest)
  | 0xFE :: 0xFF :: rest => (2, utf16Signs (fun a b => 0x100 * a.toNat + b.toNat) rest)
  | 0xEF :: 0xBB :: 0xBF :: rest => (3, utf8Signs 0 rest)
  | octets => (0, utf8Signs 0 octets)

/-- The pieces of a text in front of the one with something that may not stand there, and whether
there is one.  `piece` is what has been read of the piece, the last character first, and `room` the
number of octets that still fit into it. -/
def readableFrom (room : Nat) (piece : List Char) : List Sign → List Char × Bool
  | [] => (piece.reverse, false)
  | s :: rest =>
    match s.char?.filter isAllowed with
    | none => (if s.size ≤ room then [] else piece.reverse, true)
    | some c =>
      if s.size ≤ room then readableFrom (room - s.size) (c :: piece) rest
      else
        let (more, isCut) := readableFrom (pieceSize - s.size) [c] rest
        (piece.reverse ++ more, isCut)

/-- The number of characters that fit into `room` octets. -/
def fitting (room : Nat) : List Sign → Nat
  | [] => 0
  | s :: rest => if s.size ≤ room then fitting (room - s.size) rest + 1 else 0

/-- A scanner at the start of a text.  A byte order mark in front does not count; after a second one
the lines of the first piece lose a character each, the first line this mark. -/
def Scanner.ofOctets (octets : List UInt8) : Scanner :=
  let (mark, signs) := signsOf octets
  let room := pieceSize - mark
  let (cs, isCut) := readableFrom room [] signs
  let isMarkedAgain := 0 < mark && (signs.head?.bind Sign.char?).any isMark
  { at_ := { rest := cs }, isCut, window := if isMarkedAgain then fitting room signs else 0 }

/-- The tokens of a text in octets, up to the end or a fault. -/
def Token.scan (octets : List UInt8) : List Lexeme :=
  let s := Scanner.ofOctets octets
  s.run (s.at_.rest.length + 2)

end StackLang.Yaml

import StackLang.Shell.Script

/-!
# Lexemes of scripts

A script is read from left to right, one lexeme at a time: operators, line ends and words.  Inside
words there are quotes, parameters, expressions and whole command lists, so how a command list is
read is an argument here (`Nested`).  The bodies of here-documents are read when the line that
announces them has ended; they are kept by number.
-/

set_option autoImplicit false

namespace StackLang.Shell

/-- A place where a script cannot be read, and why. -/
structure Malformed where
  line : Nat
  reason : String
  deriving DecidableEq, Repr

/-- A lexeme. -/
inductive Lexeme where
  | endOfFile
  | newline
  /-- An operator. -/
  | operator (text : String)
  /-- A redirection whose target follows. -/
  | redirect (stream : Nat) (kind : RedirectKind)
  /-- A redirection to a here-document whose mark follows.  `strip` says whether tabs in front of
  its lines are dropped. -/
  | document (stream : Nat) (strip : Bool)
  | word (w : Word)
  | keyword (text : String)

/-- A lexeme in complaints. -/
def Lexeme.shown : Lexeme → String
  | endOfFile => "end of file"
  | newline => "newline"
  | operator text => "\"" ++ text ++ "\""
  | redirect _ _ => "redirection"
  | document _ _ => "redirection"
  | word _ => "word"
  | keyword text => "\"" ++ text ++ "\""

/-- A here-document whose body has not been read yet. -/
structure Announced where
  number : Nat
  mark : List Char
  strip : Bool
  /-- Whether the body is taken as it is. -/
  verbatim : Bool

/-- The rest of a script, and what has been read of it so far. -/
structure Input where
  rest : List Char
  line : Nat := 1
  /-- A lexeme that has been put back. -/
  ahead : Option Lexeme := none
  announced : List Announced := []
  documents : Array Word := #[]

/-- Reading a script. -/
abbrev Read := StateT Input (Except Malformed)

namespace Read

/-- Refuse the script. -/
def refuse {α : Type} (reason : String) : Read α := do
  throw { line := (← get).line, reason }

/-- Skip line ends that a backslash hides. -/
def dropHidden (line : Nat) : List Char → Nat × List Char
  | '\\' :: '\n' :: rest => dropHidden (line + 1) rest
  | cs => (line, cs)

/-- The next character. -/
def peek : Read (Option Char) := do
  let i ← get
  let (line, rest) := dropHidden i.line i.rest
  set { i with line, rest }
  return rest.head?

/-- Skip a character. -/
def skip : Read Unit := modify fun i => { i with rest := i.rest.drop 1 }

/-- Skip the character `c`, if it is next. -/
def skipIf (c : Char) : Read Bool := do
  if (← peek) == some c then
    skip
    return true
  return false

/-- Count a line end. -/
def countLine : Read Unit := modify fun i => { i with line := i.line + 1 }

/-- Skip and return the characters up to the first that is not in a class. -/
def takeWhile (p : Char → Bool) : Nat → Read (List Char)
  | 0 => return []
  | n + 1 => do
    match ← peek with
    | some c =>
      if p c then
        skip
        return c :: (← takeWhile p n)
      else return []
    | none => return []

/-- Take characters as they are up to a closing one, which is skipped. -/
def takeUntil (close : Char) : Read (List Char) := do
  let i ← get
  let inside := i.rest.takeWhile (· != close)
  let after := i.rest.drop inside.length
  let line := i.line + inside.count '\n'
  set { i with line, rest := after.drop 1 }
  if after.isEmpty then refuse "Unterminated quoted string"
  return inside

end Read

open Read

/-- How command lists inside words are read. -/
structure Nested where
  /-- Commands up to a closing parenthesis, which is skipped. -/
  commands : Read (List Command)
  /-- The commands of a text. -/
  ofText : List Char → Read (List Command)
  /-- More than the number of characters left. -/
  bound : Nat

/-- Where the characters of a word stand. -/
inductive Place where
  /-- Outside of quotes. -/
  | bare
  /-- In the mark of a here-document, outside of quotes. -/
  | mark
  /-- Between double quotes. -/
  | quotes
  /-- Between the braces of a parameter. -/
  | braces
  /-- Between the braces of a parameter that is quoted.  `inner` says whether quotes were opened
  there. -/
  | quotedBraces (inner : Bool)
  /-- In an arithmetic expression, behind so many opening parentheses. -/
  | sum (depth : Nat)
  /-- In a line of a here-document. -/
  | document

namespace Place

/-- Whether the characters at a place are quoted. -/
def isQuoted : Place → Bool
  | bare => false
  | mark => false
  | braces => false
  | _ => true

/-- Whether a backslash at a place takes the meaning of a character. -/
def escapes (p : Place) (c : Char) : Bool :=
  match p with
  | bare => true
  | mark => true
  | braces => true
  | quotes => isEscapable c || c == '"'
  | quotedBraces inner => isEscapable c || c == '"' || (c == '\x7d' && !inner)
  | sum _ => isEscapable c || c == '"'
  | document => isEscapable c
where
  /-- The characters that have a meaning everywhere. -/
  isEscapable (c : Char) : Bool := c == '\\' || c == '$' || c == '\x60'

/-- Whether a character ends a word. -/
def endsWord (c : Char) : Bool :=
  [' ', '\t', '\n', '&', '|', ';', '<', '>', '(', ')'].contains c

end Place

/-- Whether a character alone is the name of a parameter. -/
def isSpecialParam (c : Char) : Bool :=
  isDigit c || ['@', '*', '#', '?', '-', '$', '!'].contains c

/-- What stands behind the name of a parameter between braces. -/
def readUse : Read Use := do
  match ← peek with
  | some '\x7d' => do skip; return .value
  | some ':' => do
    skip
    match ← peek with
    | some c => do
      skip
      return (useOf c true).getD .bad
    | none => return .bad
  | some '%' => do skip; return .trim true (← skipIf '%')
  | some '#' => do skip; return .trim false (← skipIf '#')
  | some c => do skip; return (useOf c false).getD .bad
  | none => return .bad
where
  /-- The use that a character says. -/
  useOf (c : Char) (empty : Bool) : Option Use :=
    match c with
    | '-' => some (.otherwise empty)
    | '=' => some (.assign empty)
    | '?' => some (.require empty)
    | '+' => some (.instead empty)
    | _ => none

/-- The name of a parameter between braces, and its use. -/
def readBraced (bound : Nat) : Read (String × Use) := do
  match ← peek with
  | none => return ("", .bad)
  | some c =>
    if isNameStart c || isDigit c then
      let name ← takeWhile (if isDigit c then isDigit else isNameChar) bound
      return (String.ofList name, ← readUse)
    else if c == '#' then
      skip
      match ← peek with
      | none => return ("#", .bad)
      | some d =>
        if isNameStart d || isDigit d then
          let name ← takeWhile (if isDigit d then isDigit else isNameChar) bound
          let closed := (← peek) == some '\x7d'
          return (String.ofList name, if closed then .length else .bad)
        else
          let before ← get
          skip
          if d != '\x7d' && (← peek) == some '\x7d' then
            return (String.singleton d, if isSpecialParam d then .length else .bad)
          else
            set before
            return ("#", ← readUse)
    else if isSpecialParam c then
      skip
      return (String.singleton c, ← readUse)
    else return ("", .bad)

/-- The text between backquotes, the backslashes that only guard characters from being read too
early removed. -/
def readBackquoted (quoted : Bool) : Nat → Read (List Char)
  | 0 => return []
  | n + 1 => do
    match ← peek with
    | none => refuse "EOF in backquote substitution"
    | some '\x60' => do skip; return []
    | some '\\' => do
      skip
      match (← get).rest with
      | [] => refuse "EOF in backquote substitution"
      | c :: rest =>
        modify fun i => { i with rest }
        let kept := if c == '\\' || c == '\x60' || c == '$' || (quoted && c == '"') then [c]
          else ['\\', c]
        return kept ++ (← readBackquoted quoted n)
    | some c => do
      skip
      if c == '\n' then countLine
      return c :: (← readBackquoted quoted n)

mutual

/-- What a dollar sign, which has been skipped, starts. -/
def readDollar (nested : Nested) (quoted : Bool) : Nat → Read Part
  | 0 => return .char '$' quoted
  | n + 1 => do
    match ← peek with
    | none => return .char '$' quoted
    | some c =>
      if c == '(' then
        skip
        if ← skipIf '(' then return .arithmetic (← readParts nested (.sum 0) n) quoted
        else return .output (← nested.commands) quoted
      else if c == '\x7b' then
        skip
        let (name, use) ← readBraced nested.bound
        match use with
        | .value => return .param name .value [] quoted
        | .trim .. => return .param name use (← readParts nested .braces n) quoted
        | _ =>
          let place := if quoted then Place.quotedBraces false else .braces
          return .param name use (← readParts nested place n) quoted
      else if isNameStart c then
        return .param (String.ofList (← takeWhile isNameChar nested.bound)) .value [] quoted
      else if isSpecialParam c then
        skip
        return .param (String.singleton c) .value [] quoted
      else return .char '$' quoted

/-- The parts of a word, or of a piece of one, up to its end.  What ends a piece is skipped. -/
def readParts (nested : Nested) (place : Place) : Nat → Read Word
  | 0 => return []
  | n + 1 => do
    let quoted := place.isQuoted
    let put (p : Part) (place : Place) : Read Word := do
      return p :: (← readParts nested place n)
    match ← peek, place with
    | none, .bare => return []
    | none, .mark => return []
    | none, .document => return []
    | none, .braces => refuse "Missing '\x7d'"
    | none, .sum _ => refuse "Missing '))'"
    | none, _ => refuse "Unterminated quoted string"
    | some '\\', _ => do
      skip
      match (← get).rest with
      | [] => put (.char '\\' true) place
      | c :: rest =>
        modify fun i => { i with rest }
        if place.escapes c then put (.char c true) place
        else return .char '\\' true :: .char c true :: (← readParts nested place n)
    | some '$', .mark => do skip; put (.char '$' false) place
    | some '$', _ => do
      skip
      let p ← readDollar nested quoted n
      put p place
    | some '\x60', .mark => do skip; put (.char '\x60' false) place
    | some '\x60', _ => do
      skip
      let text ← readBackquoted quoted nested.bound
      let body ← nested.ofText text
      put (.output body quoted) place
    | some '"', .quotes => do skip; return []
    | some '"', .quotedBraces inner => do skip; put .quote (.quotedBraces !inner)
    | some '"', .document => do skip; put (.char '"' true) place
    | some '"', .sum _ => do skip; put (.char '"' true) place
    | some '"', _ => do
      skip
      let inside ← readParts nested .quotes n
      return .quote :: inside ++ (← readParts nested place n)
    | some '\x7d', .braces => do skip; return []
    | some '\x7d', .quotedBraces false => do skip; return []
    | some '(', .sum depth => do skip; put (.char '(' true) (.sum (depth + 1))
    | some ')', .sum 0 => do
      skip
      if ← skipIf ')' then return [] else put (.char ')' true) place
    | some ')', .sum (depth + 1) => do skip; put (.char ')' true) (.sum depth)
    | some '\n', .document => do skip; countLine; return [.char '\n' true]
    | some c, _ => do
      match place with
      | .bare => if Place.endsWord c then return []
      | .mark => if Place.endsWord c then return []
      | _ => pure ()
      skip
      if c == '\n' then countLine
      if c == '\'' && !quoted then
        let inside ← takeUntil '\''
        return .quote :: inside.map (.char · true) ++ (← readParts nested place n)
      else put (.char c quoted) place

end

/-! ## Here-documents -/

/-- Whether a line is the end of a here-document. -/
def endsDocument (a : Announced) (cs : List Char) : Bool :=
  (if a.strip then cs.dropWhile (· == '\t') else cs).takeWhile (· != '\n') == a.mark

/-- The body of a here-document. -/
def readDocument (nested : Nested) (a : Announced) : Nat → Read Word
  | 0 => return []
  | n + 1 => do
    let i ← get
    if i.rest.isEmpty then return []
    else if endsDocument a i.rest then
      set { i with line := i.line + 1, rest := (i.rest.dropWhile (· != '\n')).drop 1 }
      return []
    else
      if a.strip then set { i with rest := i.rest.dropWhile (· == '\t') }
      if a.verbatim then
        let i ← get
        let text := i.rest.takeWhile (· != '\n')
        let rest := i.rest.drop text.length
        set { i with line := i.line + 1, rest := rest.drop 1 }
        let line := text ++ rest.take 1
        return line.map (.char · true) ++ (← readDocument nested a n)
      else
        let line ← readParts nested .document nested.bound
        return line ++ (← readDocument nested a n)

/-- Read the bodies of the here-documents that have been announced. -/
def readDocuments (nested : Nested) : Read Unit := do
  let announced := (← get).announced
  modify fun i => { i with announced := [] }
  for a in announced do
    let body ← readDocument nested a nested.bound
    modify fun i => { i with documents := i.documents.setIfInBounds a.number body }

/-! ## Lexemes -/

/-- The keywords. -/
def keywords : List String :=
  ["!", "case", "do", "done", "elif", "else", "esac", "fi", "for", "if", "in", "then", "until",
    "while", "\x7b", "\x7d"]

/-- The keyword that a word is, if it is one. -/
def keyword? (w : Word) : Option String :=
  w.plain?.bind fun cs => keywords.find? (· == String.ofList cs)

/-- What a redirection of a stream, whose first character is next, does. -/
def readRedirect (stream : Option Nat) : Read Lexeme := do
  if ← skipIf '>' then
    let n := stream.getD 1
    if ← skipIf '>' then return .redirect n .append
    else if ← skipIf '|' then return .redirect n (.write true)
    else if ← skipIf '&' then return .redirect n (.same false)
    else return .redirect n (.write false)
  else
    skip
    let n := stream.getD 0
    if ← skipIf '<' then return .document n (← skipIf '-')
    else if ← skipIf '&' then return .redirect n (.same true)
    else if ← skipIf '>' then return .redirect n .readWrite
    else return .redirect n .read

/-- A word, or a redirection with or without a number in front. -/
def readWord (nested : Nested) (place : Place) : Read Lexeme := do
  let w ← readParts nested place nested.bound
  let next ← peek
  if next == some '<' || next == some '>' then
    match w with
    | [] => readRedirect none
    | [.char c false] =>
      if isDigit c then readRedirect (some (c.toNat - 48)) else return .word w
    | _ => return .word w
  else return .word w

/-- The next lexeme. -/
def readLexeme (nested : Nested) (place : Place) : Nat → Read Lexeme
  | 0 => return .endOfFile
  | n + 1 => do
    match ← peek with
    | none => return .endOfFile
    | some c =>
      let pair : Read Lexeme := do
        skip
        if ← skipIf c then return .operator (String.ofList [c, c])
        else return .operator (String.singleton c)
      if c == ' ' || c == '\t' then
        skip
        readLexeme nested place n
      else if c == '#' then
        modify fun i => { i with rest := i.rest.dropWhile (· != '\n') }
        readLexeme nested place n
      else if c == '\n' then
        skip
        countLine
        return .newline
      else if c == '&' || c == '|' || c == ';' then pair
      else if c == '(' || c == ')' then
        skip
        return .operator (String.singleton c)
      else readWord nested place

/-- Put a lexeme back. -/
def putBack (x : Lexeme) : Read Unit := modify fun i => { i with ahead := some x }

/-- The next lexeme, or the one that was put back. -/
def nextLexeme (nested : Nested) (place : Place) : Read Lexeme := do
  match (← get).ahead with
  | some x =>
    modify fun i => { i with ahead := none }
    return x
  | none => readLexeme nested place nested.bound

/-- The next lexeme behind all line ends. -/
def nextBeyondLines (nested : Nested) : Nat → Read Lexeme
  | 0 => return .endOfFile
  | n + 1 => do
    match ← nextLexeme nested .bare with
    | .newline =>
      readDocuments nested
      nextBeyondLines nested n
    | x => return x

/-- The next lexeme, where keywords count. -/
def nextKeyword (nested : Nested) (beyondLines : Bool) : Read Lexeme := do
  let x ← if beyondLines then nextBeyondLines nested nested.bound else nextLexeme nested .bare
  match x with
  | .word w =>
    match keyword? w with
    | some text => return .keyword text
    | none => return .word w
  | x => return x

end StackLang.Shell

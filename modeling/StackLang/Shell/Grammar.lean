import StackLang.Shell.Lexeme

/-!
# Commands of scripts

Commands are read from lexemes by recursive descent.  `readLine` reads one line of a script, or as
many as its commands take; a script is run line by line, so that what stands in front of a mistake
still runs.
-/

set_option autoImplicit false

namespace StackLang.Shell

open Read

/-- What a list of commands ends with. -/
inductive Extent where
  /-- The end of a line, outside of other commands. -/
  | line
  /-- Something else; there has to be a command. -/
  | some
  /-- Something else; there may be no command. -/
  | any
  deriving DecidableEq

/-- How lists of commands inside other commands are read. -/
structure Lists where
  nested : Nested
  read : Extent → Read (List Command)

/-- Whether a lexeme ends a list of commands. -/
def Lexeme.endsList : Lexeme → Bool
  | endOfFile => true
  | operator text => [")", ";;"].contains text
  | keyword text => ["do", "done", "elif", "else", "esac", "fi", "then", "\x7d"].contains text
  | _ => false

/-- Refuse a lexeme. -/
def unexpected {α : Type} (x : Lexeme) : Read α := refuse (x.shown ++ " unexpected")

/-- Refuse a lexeme where another one has to be. -/
def unexpectedFor {α : Type} (x expected : Lexeme) : Read α :=
  refuse (x.shown ++ " unexpected (expecting " ++ expected.shown ++ ")")

/-- Whether a lexeme is a keyword. -/
def Lexeme.isKeyword (x : Lexeme) (text : String) : Bool :=
  match x with
  | keyword t => t == text
  | _ => false

/-- Whether a lexeme is an operator. -/
def Lexeme.isOperator (x : Lexeme) (text : String) : Bool :=
  match x with
  | operator t => t == text
  | _ => false

namespace Lists

/-- The next lexeme, which is not taken for a keyword. -/
def next (l : Lists) : Read Lexeme := nextLexeme l.nested .bare

/-- Read a keyword. -/
def expectKeyword (l : Lists) (text : String) (beyondLines : Bool) : Read Unit := do
  let x ← nextKeyword l.nested beyondLines
  if !x.isKeyword text then unexpectedFor x (.keyword text)

/-- Read an operator. -/
def expectOperator (l : Lists) (text : String) : Read Unit := do
  let x ← l.next
  if !x.isOperator text then unexpectedFor x (.operator text)

/-- The target of a redirection. -/
def readTarget (l : Lists) (x : Lexeme) : Read Redirect := do
  match x with
  | .document stream strip =>
    match ← nextLexeme l.nested .mark with
    | .word w =>
      let i ← get
      let number := i.documents.size
      let a : Announced :=
        { number, mark := w.bare, strip, verbatim := w.any Part.isQuoted }
      set { i with documents := i.documents.push [], announced := i.announced ++ [a] }
      return .mk stream (.document number) []
    | x => unexpected x
  | .redirect stream kind =>
    match ← l.next with
    | .word w => return .mk stream kind w
    | x => unexpected x
  | x => unexpected x

/-- The redirections that follow a command. -/
def readRedirects (l : Lists) : Nat → Read (List Redirect)
  | 0 => return []
  | n + 1 => do
    let x ← nextKeyword l.nested false
    match x with
    | .redirect .. => return (← l.readTarget x) :: (← l.readRedirects n)
    | .document .. => return (← l.readTarget x) :: (← l.readRedirects n)
    | x =>
      putBack x
      return []

/-- The builtin commands whose names cannot be given to functions. -/
def reservedNames : List String :=
  [".", ":", "break", "continue", "eval", "exec", "exit", "export", "readonly", "return", "set",
    "shift", "times", "trap", "unset"]

/-- The name of a function that a word can be. -/
def functionName? (w : Word) : Option String :=
  w.plain?.bind fun cs =>
    if isName cs && !reservedNames.contains (String.ofList cs) then some (String.ofList cs)
    else none

/-- What has been read of a simple command, in reverse. -/
structure Simple where
  assigns : List Word := []
  words : List Word := []
  redirects : List Redirect := []

/-- A simple command, or the definition of a function, whose body is read by `command`. -/
def readSimple (l : Lists) (command : Read Command) (line : Nat) (s : Simple) :
    Nat → Read Command
  | 0 => return .block []
  | n + 1 => do
    match ← l.next with
    | .word w =>
      if s.words.isEmpty && (Word.assignment? w).isSome then
        l.readSimple command line { s with assigns := w :: s.assigns } n
      else l.readSimple command line { s with words := w :: s.words } n
    | .redirect stream kind =>
      let r ← l.readTarget (.redirect stream kind)
      l.readSimple command line { s with redirects := r :: s.redirects } n
    | .document stream strip =>
      let r ← l.readTarget (.document stream strip)
      l.readSimple command line { s with redirects := r :: s.redirects } n
    | x =>
      match x.isOperator "(", s with
      | true, { assigns := [], words := [w], redirects := [] } =>
        l.expectOperator ")"
        match functionName? w with
        | none => refuse "Bad function name"
        | some name =>
          let line := (← get).line
          let x ← nextKeyword l.nested true
          putBack x
          return .define line name (← command)
      | _, _ =>
        putBack x
        return .simple line s.assigns.reverse s.words.reverse s.redirects.reverse

/-- What follows the test of a conditional command. -/
def readBranches (l : Lists) : Nat → Read Command
  | 0 => return .block []
  | n + 1 => do
    let test ← l.read .some
    l.expectKeyword "then" false
    let yes ← l.read .some
    let x ← nextKeyword l.nested false
    if x.isKeyword "elif" then return .choice test yes [← l.readBranches n]
    else if x.isKeyword "else" then return .choice test yes (← l.read .some)
    else
      putBack x
      return .choice test yes []

/-- Words up to something else, which is returned too. -/
def readWords (l : Lists) : Nat → Read (List Word × Lexeme)
  | 0 => return ([], .endOfFile)
  | n + 1 => do
    match ← l.next with
    | .word w =>
      let (ws, x) ← l.readWords n
      return (w :: ws, x)
    | x => return ([], x)

/-- The words over which a loop goes when none are given. -/
def allArguments : List Word := [[.quote, .param "@" .value [] true]]

/-- A loop over words. -/
def readEach (l : Lists) (line : Nat) : Read Command := do
  match ← l.next with
  | .word w =>
    match w.plain? with
    | some cs =>
      if !isName cs then refuse "Bad for loop variable"
      let name := String.ofList cs
      let x ← nextKeyword l.nested true
      let mut words := allArguments
      if x.isKeyword "in" then
        let (ws, x) ← l.readWords l.nested.bound
        words := ws
        match x with
        | .newline => readDocuments l.nested
        | x => if !x.isOperator ";" then unexpected x
      else if !x.isOperator ";" then putBack x
      l.expectKeyword "do" true
      return .each line name words (← l.read .some)
    | none => refuse "Bad for loop variable"
  | _ => refuse "Bad for loop variable"

/-- The patterns of a case, of which the first lexeme has been read. -/
def readPatterns (l : Lists) (first : Lexeme) : Nat → Read (List Word)
  | 0 => return []
  | n + 1 => do
    let w := match first with
      | .word w => w
      | .keyword text => text.toList.map (.char · false)
      | _ => []
    let x ← l.next
    if x.isOperator "|" then
      let first ← l.next
      return w :: (← l.readPatterns first n)
    else if x.isOperator ")" then return [w]
    else unexpectedFor x (.operator ")")

/-- The cases of a selection. -/
def readCases (l : Lists) : Nat → Read (List (List Word × List Command))
  | 0 => return []
  | n + 1 => do
    let x ← nextKeyword l.nested true
    if x.isKeyword "esac" then return []
    else
      let first ← if x.isOperator "(" then l.next else pure x
      let patterns ← l.readPatterns first l.nested.bound
      let body ← l.read .any
      let x ← nextKeyword l.nested true
      if x.isKeyword "esac" then return [(patterns, body)]
      else if x.isOperator ";;" then return (patterns, body) :: (← l.readCases n)
      else unexpectedFor x (.operator ";;")

/-- A selection among cases. -/
def readSelect (l : Lists) (line : Nat) : Read Command := do
  match ← l.next with
  | .word subject =>
    l.expectKeyword "in" true
    return .select line subject (← l.readCases l.nested.bound)
  | x => unexpectedFor x (.word [])

/-- A command of several parts without the redirections that follow it. -/
def readCompound (l : Lists) (line : Nat) (x : Lexeme) : Read Command := do
  match x with
  | .keyword "if" =>
    let c ← l.readBranches l.nested.bound
    l.expectKeyword "fi" false
    return c
  | .keyword "for" =>
    let c ← l.readEach line
    l.expectKeyword "done" false
    return c
  | .keyword "case" => l.readSelect line
  | .keyword "\x7b" =>
    let body ← l.read .some
    l.expectKeyword "\x7d" false
    return .block body
  | .operator "(" =>
    let body ← l.read .some
    l.expectOperator ")"
    return .subshell line body []
  | x =>
    if x.isKeyword "while" || x.isKeyword "until" then
      let test ← l.read .some
      l.expectKeyword "do" false
      let body ← l.read .some
      l.expectKeyword "done" false
      return .loop (x.isKeyword "until") test body
    else unexpected x

/-- A command, of which the first lexeme has been put back.  The bodies of function definitions
nest up to a bound. -/
def readCommand (l : Lists) : Nat → Read Command
  | 0 => return .block []
  | n + 1 => do
    let line := (← get).line
    let x ← l.next
    let isSimple := match x with
      | .word _ => true
      | .redirect .. => true
      | .document .. => true
      | _ => false
    if isSimple then
      putBack x
      let line := (← get).line
      l.readSimple (l.readCommand n) line {} l.nested.bound
    else
      let c ← l.readCompound line x
      match ← l.readRedirects l.nested.bound, c with
      | [], c => return c
      | redirects, .subshell line body _ => return .subshell line body redirects
      | redirects, c => return .redirected line c redirects

/-- The commands of a pipeline after its first one. -/
def readStages (l : Lists) : Nat → Read (List Command)
  | 0 => return []
  | n + 1 => do
    let x ← l.next
    if x.isOperator "|" then
      let x ← nextKeyword l.nested true
      putBack x
      let c ← l.readCommand l.nested.bound
      return c :: (← l.readStages n)
    else
      putBack x
      return []

/-- A pipeline, of which the first lexeme has been put back. -/
def readPipeline (l : Lists) : Read Command := do
  let x ← l.next
  let negated := x.isKeyword "!"
  if negated then
    let x ← nextKeyword l.nested false
    putBack x
  else putBack x
  let first ← l.readCommand l.nested.bound
  let rest ← l.readStages l.nested.bound
  let c := if rest.isEmpty then first else .pipeline (first :: rest)
  return if negated then .negated c else c

/-- What follows a pipeline and is joined to it. -/
def readJoined (l : Lists) (c : Command) : Nat → Read Command
  | 0 => return c
  | n + 1 => do
    let x ← l.next
    if x.isOperator "&&" || x.isOperator "||" then
      let y ← nextKeyword l.nested true
      putBack y
      let d ← l.readPipeline
      l.readJoined (if x.isOperator "&&" then .both c d else .either c d) n
    else
      putBack x
      return c

/-- A list of commands.  `started` says whether there has been a command. -/
def readItems (l : Lists) (extent : Extent) (started : Bool) : Nat → Read (List Command)
  | 0 => return []
  | n + 1 => do
    let x ← nextKeyword l.nested (extent != .line)
    match x with
    | .newline =>
      readDocuments l.nested
      return []
    | .endOfFile =>
      readDocuments l.nested
      putBack x
      return []
    | _ =>
      putBack x
      if (started || extent == .any) && extent != .line && x.endsList then return []
      let first ← l.readPipeline
      let c ← l.readJoined first l.nested.bound
      let x ← l.next
      let c := if x.isOperator "&" then .background c else c
      match x with
      | .endOfFile =>
        readDocuments l.nested
        putBack x
        return [c]
      | .newline =>
        putBack x
        return c :: (← l.readItems extent true n)
      | _ =>
        if x.isOperator "&" || x.isOperator ";" then
          return c :: (← l.readItems extent true n)
        else if extent == .line then unexpected x
        else
          putBack x
          return [c]

end Lists

/-- The commands in a text, which is read in place of the rest of the script. -/
def readText (list : Read (List Command)) (text : List Char) : Read (List Command) := do
  let i ← get
  set { i with rest := text, line := 1, ahead := none, announced := [] }
  let body ← list
  modify fun j => { i with documents := j.documents }
  return body

/-- The commands up to a closing parenthesis. -/
def readParenthesis (list : Read (List Command)) : Read (List Command) := do
  let announced := (← get).announced
  modify fun i => { i with announced := [] }
  let body ← list
  modify fun i => { i with announced }
  match (← get).ahead with
  | some x =>
    modify fun i => { i with ahead := none }
    if x.isOperator ")" then return body else unexpectedFor x (.operator ")")
  | none => unexpectedFor .endOfFile (.operator ")")

/-- How lists are read that nest up to a depth, in an input of so many characters. -/
def readList (bound : Nat) : (depth : Nat) → Extent → Read (List Command)
  | 0, _ => return []
  | depth + 1, extent =>
    let list := readList bound depth
    let nested : Nested :=
      { commands := readParenthesis (list .any), ofText := readText (list .any), bound }
    Lists.readItems { nested, read := list } extent false bound

/-- Read one line of a script, or as many as its commands take.  There is none at the end. -/
def readLine : Read (Option (List Command)) := do
  let i ← get
  let bound := i.rest.length + 2
  let commands ← readList bound bound .line
  match commands, (← get).ahead with
  | [], some .endOfFile => return none
  | commands, _ =>
    modify fun i => { i with ahead := none }
    return some commands

end StackLang.Shell

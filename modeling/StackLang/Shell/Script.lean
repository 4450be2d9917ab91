/-!
# Shell scripts

The command language of a shell as data.  A word is a list of parts, some of which stand for texts
that are only known when the script runs; a command is made of words and other commands.
-/

set_option autoImplicit false

namespace StackLang.Shell

/-- How the value of a parameter is used.  `empty` says whether a value that is empty counts as
none. -/
inductive Use where
  /-- The value. -/
  | value
  /-- The length of the value. -/
  | length
  /-- The value, or a word if there is none. -/
  | otherwise (empty : Bool)
  /-- The value; if there is none, a word becomes it. -/
  | assign (empty : Bool)
  /-- The value; if there is none, the script ends. -/
  | require (empty : Bool)
  /-- A word if there is a value. -/
  | instead (empty : Bool)
  /-- The value without the shortest or longest match of a pattern at one of its ends. -/
  | trim (atEnd longest : Bool)
  /-- A use that there is not. -/
  | bad
  deriving DecidableEq, Repr

/-- What a redirection does with a stream. -/
inductive RedirectKind where
  /-- Write to a file.  `force` says whether this is meant even for a file that is there. -/
  | write (force : Bool)
  | append
  | read
  | readWrite
  /-- Go where another stream goes. -/
  | same (input : Bool)
  /-- Read a here-document, given by its number. -/
  | document (number : Nat)
  deriving DecidableEq, Repr

mutual

/-- A part of a word. -/
inductive Part where
  | char (c : Char) (quoted : Bool)
  /-- An opening quote, which makes a word even where nothing follows. -/
  | quote
  /-- A parameter. -/
  | param (name : String) (use : Use) (arg : List Part) (quoted : Bool)
  /-- The output of commands. -/
  | output (body : List Command) (quoted : Bool)
  /-- The value of an arithmetic expression. -/
  | arithmetic (body : List Part) (quoted : Bool)

/-- A redirection of a stream to what a word names. -/
inductive Redirect where
  | mk (stream : Nat) (kind : RedirectKind) (target : List Part)

/-- A command.  The line is the one that complaints about it name. -/
inductive Command where
  /-- Assignments, and a command given by words. -/
  | simple (line : Nat) (assigns words : List (List Part)) (redirects : List Redirect)
  | negated (c : Command)
  /-- Commands each of which reads what the one before it writes. -/
  | pipeline (stages : List Command)
  | both (a b : Command)
  | either (a b : Command)
  | background (c : Command)
  /-- Commands that change nothing of the shell that runs them. -/
  | subshell (line : Nat) (body : List Command) (redirects : List Redirect)
  | block (body : List Command)
  | redirected (line : Nat) (body : Command) (redirects : List Redirect)
  | choice (test yes no : List Command)
  /-- A loop that ends when its test fails or, if `inverted`, succeeds. -/
  | loop (inverted : Bool) (test body : List Command)
  | each (line : Nat) (name : String) (words : List (List Part)) (body : List Command)
  | select (line : Nat) (subject : List Part) (cases : List (List (List Part) × List Command))
  | define (line : Nat) (name : String) (body : Command)

end

/-- A word. -/
abbrev Word := List Part

instance : Inhabited Command := ⟨.block []⟩

/-- Whether a part is quoted or a quote. -/
def Part.isQuoted : Part → Bool
  | .char _ quoted => quoted
  | .quote => true
  | _ => false

/-- The characters of a word that has no other parts and no quotes. -/
def Word.plain? : Word → Option (List Char)
  | [] => some []
  | .char c false :: rest => (Word.plain? rest).map (c :: ·)
  | _ => none

/-- The characters of a word, its quotes removed.  Parts that stand for other texts are skipped. -/
def Word.bare : Word → List Char
  | [] => []
  | .char c _ :: rest => c :: Word.bare rest
  | _ :: rest => Word.bare rest

/-! ## Names -/

/-- Whether a character can start a name. -/
def isNameStart (c : Char) : Bool :=
  ('a' ≤ c && c ≤ 'z') || ('A' ≤ c && c ≤ 'Z') || c == '_'

/-- Whether a character is a decimal digit. -/
def isDigit (c : Char) : Bool := '0' ≤ c && c ≤ '9'

/-- Whether a character can stand in a name. -/
def isNameChar (c : Char) : Bool := isNameStart c || isDigit c

/-- Whether characters are a name. -/
def isName : List Char → Bool
  | [] => false
  | c :: rest => isNameStart c && rest.all isNameChar

/-- The name and the value of an assignment: the characters up to the first equals sign have to be
a name. -/
def Word.assignment? (w : Word) : Option (String × Word) :=
  go [] w
where
  /-- Read the name, given its characters so far in reverse. -/
  go (name : List Char) : Word → Option (String × Word)
    | .char '=' false :: rest =>
      if isName name.reverse then some (String.ofList name.reverse, rest) else none
    | .char c false :: rest => go (c :: name) rest
    | _ => none

end StackLang.Shell

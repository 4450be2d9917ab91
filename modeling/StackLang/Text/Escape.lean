import StackLang.Literal
import StackLang.Text.Width

/-!
# Escape sequences

A text may hold sequences that tell a display how to draw what follows.  Such a sequence starts with
the escape character.  Once a `[` has come up in it, it goes up to an `m` and lists the codes of
what it turns on or off; once a `]` has come up instead, it goes up to a backslash.  A sequence
takes no room on the display, and neither does one that never ends.
-/

set_option autoImplicit false

namespace StackLang.Text

/-- The character that starts an escape sequence. -/
def escapeChar : Char := Char.ofNat 0x1B

/-- How the end of an escape sequence is told. -/
inductive EscapeKind where
  /-- Neither bracket has come up yet. -/
  | undecided
  /-- It goes up to an `m`. -/
  | codes
  /-- It goes up to a backslash. -/
  | command
  deriving DecidableEq, Repr

/-- The kind of a sequence after one more character of it. -/
def EscapeKind.after (k : EscapeKind) (c : Char) : EscapeKind :=
  if k = .undecided then if c == '[' then .codes else if c == ']' then .command else .undecided
  else k

/-- Whether a character ends a sequence. -/
def EscapeKind.endsAt : EscapeKind → Char → Bool
  | undecided, _ => false
  | codes, c => c == 'm'
  | command, c => c == '\\'

/-- Reading a text with escape sequences: the sequence that is open, with its characters in reverse,
and the codes that are in force, in ascending order. -/
structure EscapeReader where
  sequence : Option (EscapeKind × List Char) := none
  codes : List Int := []

namespace EscapeReader

/-- Turn a code on. -/
def turnOn (code : Int) : List Int → List Int
  | [] => [code]
  | c :: rest =>
    if code < c then code :: c :: rest else if code = c then c :: rest else c :: turnOn code rest

/-- The codes that a code turns off. -/
def turnedOff : Int → Option (List Int)
  | 22 => some [1, 2]
  | 23 => some [3]
  | 24 => some [4]
  | 25 => some [5, 6]
  | 27 => some [7]
  | 29 => some [9]
  | _ => none

/-- The codes in force after one more. -/
def apply (codes : List Int) (code : Int) : List Int :=
  if code = 0 then []
  else
    match turnedOff code with
    | some off => codes.filter fun c => !off.contains c
    | none => turnOn code codes

/-- The pieces of a text between semicolons. -/
def pieces : List Char → List (List Char)
  | [] => [[]]
  | c :: rest =>
    if c == ';' then [] :: pieces rest
    else
      match pieces rest with
      | [] => [[c]]
      | piece :: more => (c :: piece) :: more

/-- A text without the first place where `part` stands in it. -/
def without (part : List Char) : List Char → List Char
  | [] => []
  | c :: rest => if part.isPrefixOf (c :: rest) then (c :: rest).drop part.length
    else c :: without part rest

/-- The codes in force after a whole sequence.  What is not a number between its semicolons does
not count. -/
def applySequence (codes : List Int) (kind : EscapeKind) (cs : List Char) : List Int :=
  let inner :=
    if kind = .command then without ['\\'] (without [escapeChar, ']'] cs)
    else without ['m'] (without [escapeChar, '['] cs)
  (pieces inner).foldl (fun codes piece =>
    match Literal.read? piece with
    | some n => apply codes n.toInt
    | none => codes) codes

/-- Read a character. -/
def consume (r : EscapeReader) (c : Char) : EscapeReader :=
  let sequence :=
    match r.sequence with
    | none => if c == escapeChar then some (EscapeKind.undecided, []) else none
    | some (kind, cs) => some (kind.after c, cs)
  match sequence with
  | none => r
  | some (kind, cs) =>
    let cs := c :: cs
    if kind.endsAt c then { codes := applySequence r.codes kind cs.reverse }
    else { r with sequence := some (kind, cs) }

/-- Read a text from its start, with the codes that are in force. -/
def consumeText (r : EscapeReader) (cs : List Char) : EscapeReader :=
  cs.foldl consume { r with sequence := none }

/-- The sequence that turns on the codes in force. -/
def opening (r : EscapeReader) : List Char :=
  if r.codes.isEmpty then []
  else
    escapeChar :: '[' :: (";".intercalate (r.codes.map fun n => toString n)).toList ++ ['m']

end EscapeReader

/-- The sequence that turns everything off. -/
def escapeReset : List Char := [escapeChar, '[', '0', 'm']

/-- The room that one more character of a text takes. -/
def shownStep (state : EscapeReader × Nat) (c : Char) : EscapeReader × Nat :=
  let after := state.1.consume c
  if state.1.sequence.isSome || after.sequence.isSome then (after, state.2)
  else (after, state.2 + charWidth c)

/-- The room that a text takes on a display. -/
def shownWidth (cs : List Char) : Nat := (cs.foldl shownStep ({}, 0)).2

end StackLang.Text

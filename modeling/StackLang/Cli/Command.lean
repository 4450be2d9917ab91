import StackLang.Cli.Flag
import StackLang.Text.Case

/-!
# Commands

The first operand of the command line names a command.  A name that is none is answered with the
names that are close to it: those that it begins, and those that two edits of an octet make of it.
-/

set_option autoImplicit false

namespace StackLang.Cli

/-- The name under which the program speaks of itself. -/
def programName : String := "tungsten"

/-- What the program can be asked to do. -/
inductive Verb where
  /-- Run a program on a machine. -/
  | sim
  /-- Build a native executable. -/
  | build
  /-- Build a native executable and run it. -/
  | run
  /-- Print the code of a program. -/
  | ir
  /-- Check a program. -/
  | verify
  deriving DecidableEq, Repr

/-- A command: a verb, or one that explains the program. -/
inductive Command where
  | verb (v : Verb)
  | completion
  | help
  deriving DecidableEq, Repr

/-- The name of a verb. -/
def Verb.name : Verb → String
  | sim => "sim"
  | build => "build"
  | run => "run"
  | ir => "ir"
  | verify => "verify"

/-- The name of a command. -/
def Command.name : Command → String
  | verb v => v.name
  | completion => "completion"
  | help => "help"

/-- All commands. -/
def Command.all : List Command :=
  [.verb .sim, .verb .build, .verb .run, .verb .ir, .verb .verify, .help, .completion]

/-- The command with a name. -/
def Command.ofName? (name : String) : Option Command := all.find? fun c => c.name == name

/-! ## Flags -/

/-- The flags of all commands. -/
def sharedFlags : Flags := [
  { name := "config" },
  { name := "log-level" },
  { name := "log-format" },
  { name := "compat-dupl", kind := .switch },
  { name := "verbose", letter := some 'v', kind := .switch }]

/-- The flag that asks for an explanation. -/
def helpFlag : Flag := { name := "help", letter := some 'h', kind := .switch }

/-- The flag for the output of a build. -/
def outputFlag : Flag := { name := "output", letter := some 'o' }

/-- The flags of a verb of its own. -/
def Verb.ownFlags : Verb → Flags
  | sim => [{ name := "timed", kind := .switch }, { name := "state", kind := .switch }]
  | build => [outputFlag]
  | run => [outputFlag]
  | ir => [{ name := "format" }]
  | verify => [{ name := "native", kind := .switch }, outputFlag,
      { name := "max-steps", kind := .number }, { name := "report" }]

/-- The flags of a verb. -/
def Verb.flags (v : Verb) : Flags := v.ownFlags ++ sharedFlags ++ [helpFlag]

/-! ## Names that are close -/

/-- The next row of the table of distances: `row` holds the distances to the beginnings of `t`,
`corner` the distance above `row`, and `left` the distance to the left of the new entry. -/
def distanceRow (a : UInt8) (corner left : Nat) : List UInt8 → List Nat → List Nat
  | b :: t, up :: row =>
    let here := if a == b then corner else min (min left up) corner + 1
    here :: distanceRow a up here t row
  | _, _ => []

/-- The number of octets to insert, delete or replace to make one text of another.  `row` holds the
distances of what has been read so far, which is `n` octets, to the beginnings of `t`. -/
def distanceFrom (t : List UInt8) : (n : Nat) → (row : List Nat) → List UInt8 → Nat
  | n, row, [] => row.getLast?.getD n
  | n, row, a :: s => distanceFrom t (n + 1) (distanceRow a n (n + 1) t row) s

/-- The number of octets to insert, delete or replace to make one text of another. -/
def distance (s t : List UInt8) : Nat :=
  distanceFrom t 0 ((List.range t.length).map (· + 1)) s

/-- Whether a name is close to what was typed. -/
def isClose (typed name : String) : Bool :=
  distance (Text.encode (Text.lowerCase typed)) (Text.encode name) ≤ 2 ||
    name.startsWith (Text.lowerCase typed)

/-- The names that are close to what was typed. -/
def suggestions (typed : String) : List String :=
  ((Command.all.filter (· != .help)).map Command.name).filter (isClose typed)

/-- The complaint about an unknown command. -/
def unknownCommand (typed : String) : String :=
  let close := suggestions typed
  "unknown command " ++ Text.quoted typed ++ " for " ++ Text.quoted programName ++
    (if close.isEmpty then ""
     else "\n\nDid you mean this?\n" ++ String.join (close.map fun s => "\t" ++ s ++ "\n"))

/-! ## Finding the command -/

/-- Whether an argument before the command takes the next one as its value.  Flags that are not
known count as such. -/
def takesNext (arg : String) : Bool :=
  !arg.toList.contains '=' &&
  ((arg.startsWith "--" &&
      !((Flags.named? sharedFlags (arg.drop 2).toString).any Flag.isSwitch)) ||
    (arg.startsWith "-" && arg.utf8ByteSize == 2 &&
      !(((arg.drop 1).toString.toList.head?.bind (Flags.lettered? sharedFlags)).any
        Flag.isSwitch)))

/-- The arguments that are neither flags nor values of flags. -/
def plainWords : List String → List String
  | [] => []
  | arg :: rest =>
    if arg == "--" then []
    else if takesNext arg then
      match rest with
      | _ :: next :: more => plainWords (next :: more)
      | _ => []
    else if arg != "" && !arg.startsWith "-" then arg :: plainWords rest
    else plainWords rest

/-- The arguments without the first that is a given word and no value of a flag. -/
def withoutWord (word : String) : List String → List String
  | [] => []
  | arg :: rest =>
    if arg == "--" then arg :: rest
    else if takesNext arg then
      match rest with
      | [] => [arg]
      | value :: more => arg :: value :: withoutWord word more
    else if arg == word then rest
    else arg :: withoutWord word rest

/-- The command of some arguments, if they name one, and the other arguments. -/
def findCommand (args : List String) : Except String (Option Command × List String) :=
  match plainWords args with
  | [] => .ok (none, args)
  | word :: _ =>
    match Command.ofName? word with
    | some c => .ok (some c, withoutWord word args)
    | none => .error (unknownCommand word)

end StackLang.Cli

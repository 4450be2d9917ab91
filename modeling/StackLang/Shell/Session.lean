import StackLang.Files
import StackLang.Text.Octets
import StackLang.Shell.Script

/-!
# Sessions

What the commands of a script can see and change.  The files, and what has been opened, belong to
the host and are shared by all programs; variables, parameters and the numbering of the streams
belong to a session, and a part of a script that runs apart from the rest works on a copy.

All texts of a session are texts of octets.
-/

set_option autoImplicit false

namespace StackLang.Shell

/-! ## Open files -/

/-- Something that is open for reading or writing. -/
inductive Opening where
  /-- What has been written and not been read. -/
  | pipe (text : String)
  /-- A position in a file, and what the file has been opened for. -/
  | file (place : Location) (offset : Nat) (append readable writable : Bool)
  /-- Nothing to read; what is written is dropped. -/
  | null
  /-- Nothing can be written. -/
  | full

/-- The files, and all that has been opened. -/
structure Host where
  files : Files
  openings : Array Opening := #[]

namespace Host

/-- The content of a file, in octets. -/
def octetsAt (h : Host) (place : Location) : String :=
  match h.files.at? place with
  | some (.file content _) => Text.ofOctets content
  | _ => ""

/-- Write text into a file from an offset on. -/
def writeAt (h : Host) (place : Location) (offset : Nat) (text : String) : Host :=
  match h.files.at? place with
  | some (.file content executable) =>
    let gap := List.replicate (offset - content.length) 0
    let content :=
      content.take offset ++ gap ++ Text.toOctets text ++ content.drop (offset + text.length)
    { h with files := h.files.put place (.file content executable) }
  | _ => h

/-- Write text to something open, if it can be written. -/
def write? (h : Host) (i : Nat) (text : String) : Option Host :=
  match h.openings[i]? with
  | some (.pipe _) =>
    let extend : Opening → Opening
      | .pipe old => .pipe (old ++ text)
      | o => o
    some { h with openings := h.openings.modify i extend }
  | some (.file place offset append readable writable) =>
    if !writable then none
    else
      let size := match h.files.at? place with
        | some (.file content _) => content.length
        | _ => 0
      let start := if append then size else offset
      let o := Opening.file place (start + text.length) append readable writable
      some { h.writeAt place start text with openings := h.openings.setIfInBounds i o }
  | some .null => some h
  | some .full => none
  | none => none

/-- What is left to read of something open, if it can be read. -/
def unread? (h : Host) (i : Nat) : Option String :=
  match h.openings[i]? with
  | some (.pipe text) => some text
  | some (.file place offset _ readable _) =>
    if readable then some (String.ofList ((h.octetsAt place).toList.drop offset)) else none
  | some .null => some ""
  | some .full => some ""
  | none => none

/-- Take so many octets from what is left to read. -/
def consume (h : Host) (i n : Nat) : Host :=
  let step : Opening → Opening
    | .pipe text => .pipe (String.ofList (text.toList.drop n))
    | .file place offset append readable writable =>
      .file place (offset + n) append readable writable
    | o => o
  { h with openings := h.openings.modify i step }

/-- Open something. -/
def add (h : Host) (o : Opening) : Host × Nat :=
  ({ h with openings := h.openings.push o }, h.openings.size)

end Host

/-- Which open files the streams of a program lead to. -/
abbrev Streams := List (Nat × Nat)

/-- The streams with one of them changed. -/
def Streams.set (s : Streams) (stream i : Nat) : Streams :=
  (stream, i) :: List.filter (fun (n, _) => n != stream) s

/-- The streams without one of them. -/
def Streams.close (s : Streams) (stream : Nat) : Streams :=
  List.filter (fun (n, _) => n != stream) s

/-- Write text to a stream, if it is open for that. -/
def Host.put? (h : Host) (streams : Streams) (stream : Nat) (text : String) : Option Host :=
  if text == "" then some h
  else (streams.lookup stream).bind fun i => h.write? i text

/-! ## Sessions -/

/-- A variable. -/
structure Variable where
  value : Option String
  exported : Bool := false
  /-- Whether it keeps its value. -/
  fixed : Bool := false

/-- The options of a shell. -/
structure Options where
  /-- Export all variables that are assigned. -/
  exportAll : Bool := false
  /-- Keep files that are there. -/
  keepFiles : Bool := false
  /-- End the script when a command fails. -/
  exitOnFailure : Bool := false
  /-- Take patterns for file names literally. -/
  noPatterns : Bool := false
  /-- Read commands without running them. -/
  readOnly : Bool := false
  /-- Refuse variables without a value. -/
  noUnset : Bool := false
  /-- Show the lines of the script. -/
  showLines : Bool := false
  /-- Show commands before they run. -/
  showCommands : Bool := false

/-- A shell at work. -/
structure Session where
  host : Host
  streams : Streams
  /-- The name under which the script runs, and its arguments. -/
  self : String := "sh"
  args : List String := []
  vars : List (String × Variable) := []
  functions : List (String × Nat × Command) := []
  /-- The bodies of here-documents. -/
  documents : Array Word := #[]
  options : Options := {}
  /-- The line of the command that is running. -/
  line : Nat := 0
  /-- The line up to which the script has been read. -/
  readLine : Nat := 0
  /-- The builtin command that is running. -/
  builtin : Option String := none
  /-- The status of the last command. -/
  status : Nat := 0
  /-- The status of the last command whose output was used in a word. -/
  outputStatus : Nat := 0
  /-- How many loops are running. -/
  loops : Nat := 0
  /-- Whether a function is running, and the variables it has made its own. -/
  locals : Option (List (String × Option Variable)) := none
  /-- What to do at the end. -/
  atExit : Option String := none
  umask : Nat := 0o022
  /-- The numbers of the commands that were run in the background, and their statuses, the last
  one first. -/
  jobs : List (Nat × Nat) := []

namespace Session

/-- The value of a variable. -/
def value? (s : Session) (name : String) : Option String :=
  (s.vars.lookup name).bind Variable.value

/-- Whether a variable keeps its value. -/
def isFixed (s : Session) (name : String) : Bool :=
  (s.vars.lookup name).any Variable.fixed

/-- The session with another variable in place of one. -/
def putVariable (s : Session) (name : String) (v : Option Variable) : Session :=
  let others := s.vars.filter fun (n, _) => n != name
  { s with
    vars := match v with
      | some v => (name, v) :: others
      | none => others }

/-- Give a variable a value. -/
def setVariable (s : Session) (name value : String) : Session :=
  let old := (s.vars.lookup name).getD { value := none }
  s.putVariable name (some
    { old with value := some value, exported := old.exported || s.options.exportAll })

/-- The variables that programs started from here will have, by name. -/
def environment (s : Session) : List (String × String) :=
  s.vars.filterMap fun (name, v) =>
    if v.exported then v.value.map (name, ·) else none

/-- The characters that separate words in values. -/
def separators (s : Session) : List Char :=
  match s.value? "IFS" with
  | some v => v.toList
  | none => [' ', '\t', '\n']

/-- A complaint as it is written. -/
def complaint (s : Session) (text : String) : String :=
  let builtin := match s.builtin with
    | some name => name ++ ": "
    | none => ""
  s.self ++ ": " ++ toString s.line ++ ": " ++ builtin ++ text ++ "\n"

end Session

/-- Ways to leave a command early. -/
inductive Jump where
  /-- End the shell. -/
  | exit
  /-- End the shell, or a builtin command that is not special, after a complaint. -/
  | failed
  /-- Leave so many loops. -/
  | leave (loops : Nat)
  /-- Go on with the next round of a loop, so many loops out. -/
  | again (loops : Nat)
  /-- Leave a function or a file of commands. -/
  | back
  deriving DecidableEq, Repr

/-- Running commands. -/
abbrev Run := EStateM Jump Session

namespace Run

/-- Write to a stream.  The answer says whether that was possible. -/
def write (stream : Nat) (text : String) : Run Bool := do
  let s ← get
  match s.host.put? s.streams stream text with
  | some host =>
    set { s with host }
    return true
  | none => return false

/-- Complain. -/
def warn (text : String) : Run Unit := do
  let _ ← write 2 ((← get).complaint text)

/-- Complain and give up. -/
def fail {α : Type} (text : String) : Run α := do
  warn text
  modify fun s => { s with status := 2 }
  throw .failed

/-- Complain that a text is not a number, and give up. -/
def illegalNumber {α : Type} (text : String) : Run α := fail ("Illegal number: " ++ text)

/-- Give a variable a value, if it can be changed. -/
def assign (name value : String) : Run Unit := do
  if (← get).isFixed name then fail (name ++ ": is read only")
  modify fun s => s.setVariable name value

/-- Set the status. -/
def setStatus (n : Nat) : Run Nat := do
  modify fun s => { s with status := n }
  return n

/-- The status that an action leads to, whether it is left early or not. -/
def settle (action : Run Nat) (s : Session) : Session :=
  match action s with
  | .ok n s => { s with status := n }
  | .error _ s => s

end Run

/-- How commands inside other commands are run. -/
structure Kernel where
  /-- Run a command.  The flag says whether its status is only looked at, so that a failure does
  not end the script. -/
  run : (tested : Bool) → Command → Run Nat
  /-- Read a text and run its commands. -/
  source : (text : String) → Run Nat
  /-- Start the program at a path under a name, if it can be started. -/
  start : (path name : String) → (args : List String) → Run (Except Errno Nat)

/-- Run commands one after the other. -/
def Kernel.runAll (k : Kernel) (tested : Bool) : List Command → Run Nat
  | [] => return 0
  | [c] => k.run tested c
  | c :: rest => do
    let _ ← k.run tested c
    k.runAll tested rest

/-- Run an action on a copy of the session, of which only the changes to the host are kept. -/
def Kernel.apart (k : Kernel) (action : Run Nat) : Run Nat := do
  let s ← get
  let t := Run.settle action { s with atExit := none }
  let t := match t.atExit with
    | none => t
    | some text =>
      let status := t.status
      let u := Run.settle (k.source text) { t with atExit := none }
      { u with status }
  set { s with host := { t.host with files := { t.host.files with cwd := s.host.files.cwd } } }
  return t.status % 256

end StackLang.Shell

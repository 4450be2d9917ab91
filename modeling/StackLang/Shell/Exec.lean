import StackLang.Shell.Evaluate
import StackLang.Text.Quoted

/-!
# Starting programs

A program is found by a path or, without a slash, among the programs of the system.  Of these there
are few: no assembler and no linker, but a shell, so that both can be given as scripts.  A file can
be run if it is marked as executable and its first line names a program to run it.
-/

set_option autoImplicit false

namespace StackLang.Shell

/-- Why a program is not started. -/
inductive StartError where
  /-- There is no name. -/
  | noCommand
  /-- No program of the system has the name. -/
  | notFound (name : String)
  /-- The name is that of a directory. -/
  | directory (name : String)
  | file (e : FileError)
  deriving DecidableEq, Repr

/-- The reason in words. -/
def StartError.message : StartError → String
  | noCommand => "exec: no command"
  | notFound name => "exec: " ++ Text.quoted name ++ ": executable file not found in $PATH"
  | directory name => "exec: " ++ Text.quoted name ++ ": " ++ Errno.isDirectory.message
  | file e => e.message

/-! ## Files that can be run -/

/-- How much of a file is looked at to find out how to run it. -/
def headLimit : Nat := 256

/-- Whether a character ends the path of a program on the first line of a file. -/
def endsPath (c : Char) : Bool := c == ' ' || c == '\t' || c == '\x00'

/-- Whether a character is a blank on the first line of a file. -/
def isLineBlank (c : Char) : Bool := c == ' ' || c == '\t'

/-- The program that the first line of a file names, and the argument behind it.  A path that may
have been cut off is not taken. -/
def interpreter? (content : List UInt8) : Option (String × Option String) :=
  match (Text.ofOctets (content.take headLimit)).toList with
  | '#' :: '!' :: rest =>
    let padded := rest ++ List.replicate (headLimit - 2 - rest.length) '\x00'
    let line := padded.takeWhile fun c => c != '\n' && c != '\x00'
    let isWhole := (padded.drop line.length).head? == some '\n'
    let start := (if isWhole then line else padded).dropWhile isLineBlank
    let path := start.takeWhile fun c => !endsPath c
    if path.length == start.length && (!isWhole || path.isEmpty) then none
    else
      -- the last character looked at ends a line that goes on
      let seen := if isWhole then start else start.dropLast
      let behind := (seen.drop path.length).takeWhile (· != '\x00')
      let arg := behind.dropWhile isLineBlank
      let arg := (arg.reverse.dropWhile isLineBlank).reverse
      some (String.ofList path, if arg.isEmpty then none else some (String.ofList arg))
  | _ => none

/-- What is started under a path. -/
inductive Target where
  | tool (t : Tool) (name : String) (args : List String)
  /-- A file that does not say how it is run. -/
  | unmarked
  deriving DecidableEq, Repr

/-- What is started under a path with a name and arguments.  A file can name another file to run
it, a few times. -/
def targetAt (files : Files) : (fuel : Nat) → (path name : String) → (args : List String) →
    Except Errno Target
  | n, path, name, args =>
    match Tool.ofPath? path with
    | some t => if n = 0 then .error .tooManyLinks else .ok (.tool t name args)
    | none => do
      match ← files.stat (Text.spelled path) with
      | .dir => .error .permission
      | .file content executable =>
        if !executable then .error .permission
        else
          match n, interpreter? content with
          | 0, _ => .error .tooManyLinks
          | _, none => .ok .unmarked
          | n + 1, some (program, arg) =>
            -- no name leads to the working directory, which cannot be run
            if program == "" then .error .permission
            else targetAt files n program program (arg.toList ++ path :: args)

/-- How many files can name each other to be run. -/
def chainLimit : Nat := 6

/-! ## Running a program -/

/-- The variables of a shell that has just been started. -/
def firstVariables (cwd : Location) (environment : List (String × String)) :
    List (String × Variable) :=
  let own : List (String × String) := [("IFS", " \t\n"), ("OPTIND", "1"), ("PS2", "> "),
    ("PS4", "+ ")]
  let given := (environment.filter fun (name, _) => name != "IFS" && name != "PWD").map
    fun (name, v) => (name, ({ value := some v, exported := true } : Variable))
  ("PWD", { value := some (pathOf cwd), exported := true }) :: given ++
    (own.filter fun (name, _) => (given.lookup name).isNone).map fun (name, v) =>
      (name, { value := some v })

/-- Run a text in a shell of its own.  What was left for the end does not change the status, unless
it ends the shell itself. -/
def runSession (k : Kernel) (s : Session) (text : String) : Host × Nat :=
  let t := Run.settle (k.source text) s
  match t.atExit with
  | none => (t.host, t.status % 256)
  | some action =>
    match k.source action { t with atExit := none } with
    | .error .exit u => (u.host, u.status % 256)
    | .error _ u => (u.host, t.status % 256)
    | .ok _ u => (u.host, t.status % 256)

/-- Run the shell as a program. -/
def runShell (k : Kernel) (host : Host) (streams : Streams) (environment : List (String × String))
    (name : String) (args : List String) : Host × Nat :=
  let fail (text : String) : Host × Nat :=
    ((host.put? streams 2 (name ++ ": 0: " ++ text ++ "\n")).getD host, 2)
  match readOptions true { options := {}, rest := args } (args.length + 1) with
  | .error text => fail text
  | .ok r =>
    let session (self : String) (args : List String) : Session :=
      { host, streams, self, args, options := r.options,
        vars := firstVariables host.files.cwd environment }
    if r.command then
      match r.rest with
      | [] => fail "-c requires an argument"
      | text :: rest => runSession k (session (rest.headD name) (rest.drop 1)) text
    else
      match r.input, r.rest with
      | false, path :: rest =>
        match host.files.stat (Text.spelled path) with
        | .ok (.file content _) => runSession k (session path rest) (Text.ofOctets content)
        | .ok .dir => (host, 0)
        | .error e => fail ("cannot open " ++ path ++ ": " ++ openProblem e)
      | _, rest =>
        match streams.lookup 0 with
        | none => (host, 0)
        | some i =>
          let text := (host.unread? i).getD ""
          let host := host.consume i text.length
          runSession k { session name rest with host } text

/-- Run a program under variables of its own. -/
def runEnvironment (k : Kernel) (self : String) (s : Session) : List String → Session × Nat
  | [] => (s, 0)
  | arg :: rest =>
    match splitAssignment arg with
    | (name, some value) =>
      let given : Variable := { value := some value, exported := true }
      runEnvironment k self (s.putVariable name (some given)) rest
    | (_, none) =>
      let fail (s : Session) (status : Nat) (e : Errno) : Session × Nat :=
        let text := self ++ ": " ++ quotedName arg ++ ": " ++ systemProblem e ++ "\n"
        ({ s with host := (s.host.put? s.streams 2 text).getD s.host }, status)
      let found := if arg.toList.contains '/' then some arg else findProgram? s arg
      match found with
      | none => fail s 127 .noEntry
      | some path =>
        match k.start path arg rest s with
        | .ok (.ok status) s => (s, status)
        | .ok (.error e) s => fail s (if e = .noEntry then 127 else 126) e
        | .error _ s => (s, s.status)

/-- Run a program of the system. -/
def runTool (k : Kernel) (host : Host) (streams : Streams) (environment : List (String × String))
    (t : Tool) (name : String) (args : List String) : Host × Nat :=
  let finish (work : Work Unit) : Host × Nat :=
    let (_, j) := work.run { host, streams, name }
    (j.host, j.status)
  match t with
  | .yes => (host, 0)
  | .no => (host, 1)
  | .sh => runShell k host streams environment name args
  | .cat => finish (cat args)
  | .cp => finish (cp args)
  | .echo => finish (echoArgs args)
  | .printf => finish (printArgs args)
  | .env =>
    let (s, status) := runEnvironment k name
      { host, streams, vars := firstVariables host.files.cwd environment } args
    (s.host, status)

/-- Start the program at a path.  What does not say how it is run is taken for a script. -/
def startProgram (k : Kernel) (path name : String) (args : List String) :
    Run (Except Errno Nat) := do
  let s ← get
  let finish (h : Host) (status : Nat) : Run (Except Errno Nat) := do
    set { s with host := { h with files := { h.files with cwd := s.host.files.cwd } } }
    return .ok status
  match targetAt s.host.files chainLimit path name args with
  | .error e => return .error e
  | .ok (.tool t name args) =>
    let (h, status) := runTool k s.host s.streams s.environment t name args
    finish h status
  | .ok .unmarked =>
    let (h, status) := runShell k s.host s.streams s.environment "/bin/sh" (path :: args)
    finish h status

/-- How commands are run that nest down to a depth. -/
def kernel : (depth : Nat) → Kernel
  | 0 =>
    { run := fun _ _ => throw .exit, source := fun _ => throw .exit,
      start := fun _ _ _ => throw .exit }
  | depth + 1 =>
    let k := kernel depth
    { run := k.runCommand, source := k.runText, start := startProgram k }

/-- How deep commands nest. -/
def depthLimit : Nat := 2000

/-! ## Running a program from outside -/

/-- What a program leaves: the files, and what it wrote to its output and its error output. -/
structure Finished where
  files : Files
  out : String := ""
  err : String := ""

/-- The variables that a program finds. -/
def givenEnvironment : List (String × String) := [("PATH", "/usr/bin:/bin")]

/-- What is started under a name. -/
def target (files : Files) (name : String) (args : List String) : Except StartError Target :=
  let octets := Text.octets name
  let hasNull (s : String) : Bool := s.toList.contains '\x00'
  if name == "" then .error .noCommand
  else if name == "/" then .error (.directory name)
  else
    let path := if name.toList.contains '/' then some name
      else if (Tool.ofName? octets).isSome then some ("/usr/bin/" ++ name)
      else none
    match path with
    | none => .error (.notFound name)
    | some path =>
      let fail (e : Errno) : StartError := .file ⟨"fork/exec", path, e⟩
      if hasNull name || args.any hasNull then .error (fail .invalidArgument)
      else
        match targetAt files chainLimit (Text.octets path) octets (args.map Text.octets) with
        | .error e => .error (fail e)
        | .ok .unmarked => .error (fail .execFormat)
        | .ok t => .ok t

/-- Run a program to its end: what it leaves and its status, or why it was not started. -/
def execute (files : Files) (name : String) (args : List String) :
    Finished × Except StartError Nat :=
  match target files name args with
  | .error e => ({ files }, .error e)
  | .ok .unmarked => ({ files }, .error .noCommand)
  | .ok (.tool t name args) =>
    let host : Host := { files, openings := #[.null, .pipe "", .pipe ""] }
    let streams : Streams := [(0, 0), (1, 1), (2, 2)]
    let (host, status) :=
      runTool (kernel depthLimit) host streams givenEnvironment t name args
    let text (i : Nat) := Text.spelled ((host.unread? i).getD "")
    ({ files := { host.files with cwd := files.cwd }, out := text 1, err := text 2 }, .ok status)

end StackLang.Shell

import StackLang.Shell.Condition
import StackLang.Shell.Expansion
import StackLang.Shell.Format
import StackLang.Shell.Lexeme
import StackLang.Shell.Tool

/-!
# Builtin commands

The commands that a shell carries out itself, because they change it or because they are used so
often.  A builtin command gives its status and the text that it writes.
-/

set_option autoImplicit false

namespace StackLang.Shell

open Run

/-- What a builtin command gives: its status and its text. -/
abbrev Reply := Nat × String

/-- A status without text. -/
def silent (status : Nat) : Run Reply := return (status, "")

/-! ## Options -/

/-- The options with one of them on or off, if there is one with that letter. -/
def Options.set? (o : Options) (letter : Char) (on : Bool) : Option Options :=
  match letter with
  | 'a' => some { o with exportAll := on }
  | 'C' => some { o with keepFiles := on }
  | 'e' => some { o with exitOnFailure := on }
  | 'f' => some { o with noPatterns := on }
  | 'n' => some { o with readOnly := on }
  | 'u' => some { o with noUnset := on }
  | 'v' => some { o with showLines := on }
  | 'x' => some { o with showCommands := on }
  | c => if ['I', 'i', 'm', 's', 'V', 'E', 'b'].contains c then some o else none

/-- The letter of an option with a long name. -/
def optionLetter? : String → Option Char
  | "allexport" => some 'a'
  | "noclobber" => some 'C'
  | "errexit" => some 'e'
  | "noglob" => some 'f'
  | "noexec" => some 'n'
  | "nounset" => some 'u'
  | "verbose" => some 'v'
  | "xtrace" => some 'x'
  | "ignoreeof" => some 'I'
  | "interactive" => some 'i'
  | "monitor" => some 'm'
  | "stdin" => some 's'
  | "vi" => some 'V'
  | "emacs" => some 'E'
  | "notify" => some 'b'
  | "nolog" => some 'b'
  | "debug" => some 'b'
  | _ => none

/-- What has been read of the options in front of other arguments. -/
structure OptionReading where
  options : Options
  /-- Whether the commands are an argument. -/
  command : Bool := false
  /-- Whether the commands are read from the input. -/
  input : Bool := false
  rest : List String
  /-- Whether two dashes have ended the options. -/
  ended : Bool := false

/-- Read options in front of other arguments.  `start` says whether they are those with which the
shell is started. -/
def readOptions (start : Bool) (r : OptionReading) : (fuel : Nat) →
    Except String OptionReading
  | 0 => .ok r
  | n + 1 =>
    match r.rest with
    | [] => .ok r
    | arg :: rest =>
      match arg.toList with
      | ['-'] =>
        if start then .ok { r with rest }
        else .ok { r with rest, options := { r.options with showLines := false,
                                                            showCommands := false } }
      | ['-', '-'] => .ok { r with rest, ended := true }
      | sign :: letters =>
        if sign == '-' || sign == '+' then do
          let r ← readLetters (sign == '-') { r with rest } letters
          readOptions start r n
        else .ok r
      | [] => .ok r
where
  /-- Read the letters of one argument. -/
  readLetters (on : Bool) (r : OptionReading) : List Char → Except String OptionReading
    | [] => .ok r
    | 'c' :: more =>
      if start then readLetters on { r with command := true } more
      else .error "Illegal option -c"
    | 'o' :: more =>
      match r.rest with
      | [] => readLetters on r more
      | name :: rest =>
        match (optionLetter? name).bind (r.options.set? · on) with
        | some options => readLetters on { r with options, rest } more
        | none => .error ("Illegal option -o " ++ name)
    | c :: more =>
      match r.options.set? c on with
      | some options => readLetters on { r with options, input := r.input || c == 's' } more
      | none => .error ("Illegal option -" ++ String.singleton c)

/-! ## Variables -/

/-- A text between single quotes that a shell reads back. -/
def quotedValue (s : String) : String :=
  "'" ++ "'\"'\"'".intercalate (s.splitOn "'") ++ "'"

/-- Text for each variable, in the order of their names. -/
def listVariables (s : Session) (keep : Variable → Bool) (mark : String) : String :=
  let chosen := s.vars.filter fun (_, v) => keep v
  let sorted := chosen.mergeSort fun (a, _) (b, _) => a ≤ b
  String.join (sorted.map fun (name, v) =>
    mark ++ name ++ (match v.value with
      | some value => "=" ++ quotedValue value
      | none => "") ++ "\n")

/-- The name and the value in an argument, divided by the first equals sign. -/
def splitAssignment (arg : String) : String × Option String :=
  let name := arg.toList.takeWhile (· != '=')
  match arg.toList.drop name.length with
  | [] => (arg, none)
  | _ :: value => (String.ofList name, some (String.ofList value))

/-- Mark variables, after giving them values where these are given. -/
def markVariables (change : Variable → Variable) : List String → Run Unit
  | [] => return
  | arg :: rest => do
    let (name, value) := splitAssignment arg
    if !isName name.toList then fail (name ++ ": bad variable name")
    match value with
    | some v => assign name v
    | none => pure ()
    modify fun s =>
      s.putVariable name (some (change ((s.vars.lookup name).getD { value := none })))
    markVariables change rest

/-- Mark variables, or list those that are marked. -/
def declare (mark : String) (has : Variable → Bool) (change : Variable → Variable)
    (args : List String) : Run Reply := do
  match args with
  | [] => return (0, listVariables (← get) has mark)
  | "-p" :: _ => return (0, listVariables (← get) has mark)
  | "--" :: rest =>
    markVariables change rest
    silent 0
  | args =>
    markVariables change args
    silent 0

/-- Remove variables or functions. -/
def unset (functions : Bool) : List String → Run Reply
  | [] => silent 0
  | "-f" :: rest => unset true rest
  | "-v" :: rest => unset false rest
  | name :: rest => do
    if functions then
      modify fun s => { s with functions := s.functions.filter fun (n, _) => n != name }
    else
      if !isName name.toList then fail (name ++ ": bad variable name")
      if (← get).isFixed name then fail (name ++ ": is read only")
      modify fun s => s.putVariable name none
    unset functions rest

/-- Make variables a function's own. -/
def makeLocal : List String → Run Reply
  | [] => silent 0
  | arg :: rest => do
    let s ← get
    match s.locals with
    | none => fail "not in a function"
    | some saved =>
      let (name, value) := splitAssignment arg
      if (saved.lookup name).isNone then
        set { s with locals := some ((name, s.vars.lookup name) :: saved) }
      match value with
      | some v => assign name v
      | none => pure ()
      makeLocal rest

/-! ## Reading input -/

/-- A line of input: its characters with the information whether a backslash stood in front, how
much of the input it takes, and whether it has an end. -/
def takeLine (raw : Bool) : List Char → List Marked × Nat × Bool
  | [] => ([], 0, false)
  | '\n' :: _ => ([], 1, true)
  | '\\' :: c :: rest =>
    if raw then
      let (line, n, closed) := takeLine raw (c :: rest)
      (('\\', false) :: line, n + 1, closed)
    else
      let (line, n, closed) := takeLine raw rest
      (if c == '\n' then line else (c, true) :: line, n + 2, closed)
  | c :: rest =>
    let (line, n, closed) := takeLine raw rest
    if c == '\x00' || (c == '\\' && !raw) then (line, n + 1, closed)
    else ((c, false) :: line, n + 1, closed)

/-- Whether a character of a line separates words, and whether it is a blank that does. -/
def separates (separators : List Char) (m : Marked) : Bool := !m.2 && separators.contains m.1

/-- Whether a character of a line is a blank that separates words. -/
def separatesBlank (separators : List Char) (m : Marked) : Bool :=
  separates separators m && (m.1 == ' ' || m.1 == '\t' || m.1 == '\n')

/-- Divide a line among variables.  The last one gets all that is left. -/
def divideLine (separators : List Char) : List String → List Marked → List (String × String)
  | [], _ => []
  | [name], line =>
    let line := line.dropWhile (separatesBlank separators)
    let kept := (line.reverse.dropWhile (separatesBlank separators)).reverse
    let word := kept.takeWhile fun m => !separates separators m
    -- a single separator behind a single word is not part of it
    let rest := (kept.drop word.length).dropWhile (separatesBlank separators)
    let kept := if rest.length ≤ 1 then
        if (kept.drop word.length).all (separates separators) then word else kept
      else kept
    [(name, String.ofList (kept.map Prod.fst))]
  | name :: more, line =>
    let line := line.dropWhile (separatesBlank separators)
    let word := line.takeWhile fun m => !separates separators m
    let rest := (line.drop word.length).dropWhile (separatesBlank separators)
    let rest := match rest with
      | m :: after => if separates separators m then after else rest
      | [] => []
    (name, String.ofList (word.map Prod.fst)) :: divideLine separators more rest

/-- Read a line of input into variables. -/
def read (raw : Bool) : List String → Run Reply
  | "-r" :: rest => read true rest
  | [] => fail "arg count"
  | names => do
    let s ← get
    let input := (s.streams.lookup 0).bind fun i => (s.host.unread? i).map (i, ·)
    let (line, closed) ← match input with
      | none => pure ([], false)
      | some (i, text) =>
        let (line, n, closed) := takeLine raw text.toList
        set { s with host := s.host.consume i n }
        pure (line, closed)
    for name in names do
      if !isName name.toList then fail (name ++ ": bad variable name")
    for (name, value) in divideLine s.separators names line do
      assign name value
    silent (if closed then 0 else 1)

/-! ## Directories and programs -/

/-- The path of a place. -/
def pathOf (place : Location) : String := "/" ++ "/".intercalate (place.map Text.octets)

/-- Go to another directory. -/
def changeDirectory (args : List String) : Run Reply := do
  let s ← get
  let args := args.filter fun a => a != "-L" && a != "-P" && a != "--"
  let back := args.head? == some "-"
  let path := match args with
    | [] => (s.value? "HOME").getD ""
    | "-" :: _ => (s.value? "OLDPWD").getD ""
    | path :: _ => path
  if path == "" then silent 0
  else
    match s.host.files.resolve (Text.spelled path) with
    | .error _ => fail ("can't cd to " ++ path)
    | .ok place =>
      if !s.host.files.isDirAt place then fail ("can't cd to " ++ path)
      modify fun s => { s with host := { s.host with files := { s.host.files with cwd := place } } }
      modify fun t =>
        (t.setVariable "OLDPWD" (pathOf s.host.files.cwd)).setVariable "PWD" (pathOf place)
      return (0, if back then pathOf place ++ "\n" else "")

/-- The path of the program with a name, which is sought in directories, or why there is none. -/
def findProgram (s : Session) (name : String) (e : Errno) : List String → Except Errno String
  | [] => .error e
  | dir :: rest =>
    let path := (if dir == "" then "" else dir ++ "/") ++ name
    if (Tool.ofPath? path).isSome then .ok path
    else if name == "" then findProgram s name .permission rest
    else
      match s.host.files.stat (Text.spelled path) with
      | .ok (.file _ true) => .ok path
      | .ok _ => findProgram s name .permission rest
      | .error _ => findProgram s name e rest

/-- The directories for programs. -/
def Session.programDirs (s : Session) : List String := ((s.value? "PATH").getD "").splitOn ":"

/-- The path of the program with a name. -/
def findProgram? (s : Session) (name : String) : Option String :=
  (findProgram s name .noEntry s.programDirs).toOption

/-- The path of the file of commands with a name, which need not be a program. -/
def findSource? (s : Session) (name : String) : Option String :=
  s.programDirs.findSome? fun dir =>
    let path := (if dir == "" then "" else dir ++ "/") ++ name
    match s.host.files.stat (Text.spelled path) with
    | .ok (.file _ _) => some path
    | _ => none

/-- The builtin commands that end a script when they fail. -/
def specialBuiltins : List String :=
  [".", ":", "break", "continue", "eval", "exec", "exit", "export", "readonly", "return", "set",
    "shift", "times", "trap", "unset"]

/-- The other builtin commands. -/
def regularBuiltins : List String :=
  ["[", "alias", "cd", "chdir", "command", "echo", "false", "hash", "local", "printf", "pwd",
    "read", "test", "true", "type", "umask", "unalias", "wait"]

/-- What a name stands for, in words, or shortly. -/
def describeName (s : Session) (short : Bool) (name : String) : Reply :=
  let found (brief long : String) : Reply := (0, (if short then brief else name ++ long) ++ "\n")
  if keywords.contains name then found name " is a shell keyword"
  else if specialBuiltins.contains name then found name " is a special shell builtin"
  else if (s.functions.lookup name).isSome then found name " is a shell function"
  else if regularBuiltins.contains name then found name " is a shell builtin"
  else if name.toList.contains '/' then
    if (Tool.ofPath? name).isSome || (s.host.files.stat (Text.spelled name)).toOption.isSome then
      found name (" is " ++ name)
    else (127, if short then "" else name ++ ": not found\n")
  else
    match findProgram? s name with
    | some path => found path (" is " ++ path)
    | none => (127, if short then "" else name ++ ": not found\n")

/-- Say what names stand for. -/
def describeNames (s : Session) (args : List String) : Reply :=
  args.foldl (fun (status, text) name =>
    let (n, t) := describeName s false name
    (status ||| n, text ++ t)) (0, "")

/-- Say what happens at the end, or change that. -/
def trap (args : List String) : Run Reply := do
  let isExit (name : String) : Bool := name == "EXIT" || name == "0"
  let known (name : String) : Bool :=
    isExit name || (count? name).any (· < 65) ||
      ["HUP", "INT", "QUIT", "ABRT", "ALRM", "TERM", "PIPE", "USR1", "USR2", "CHLD", "CONT",
        "TSTP", "TTIN", "TTOU"].contains name
  let (action, signals) := match args with
    | "--" :: rest => (rest.head?, rest.drop 1)
    | args => (args.head?, args.drop 1)
  match action with
  | none =>
    return (0, match (← get).atExit with
      | some text => "trap -- " ++ quotedValue text ++ " EXIT\n"
      | none => "")
  | some action =>
    let (action, signals) := if signals.isEmpty then ("-", [action]) else (action, signals)
    match signals.find? fun name => !known name with
    | some bad =>
      let _ ← write 2 ("trap: " ++ bad ++ ": bad trap\n")
      silent 1
    | none =>
      if signals.any isExit then
        modify fun s => { s with atExit := if action == "-" then none else some action }
      silent 0

/-- Four octal digits. -/
def octalMask (n : Nat) : String :=
  String.ofList ((Nat.toDigits 8 (0o10000 + n % 0o1000)).drop 1)

/-! ## Ways out -/

/-- The number that an argument says, or another one. -/
def numberArg (args : List String) (otherwise : Nat) : Run Nat := do
  match args with
  | [] => return otherwise
  | n :: _ =>
    match count? n with
    | some n => return n
    | none => illegalNumber n

/-- Leave loops. -/
def leaveLoops (jump : Nat → Jump) (args : List String) : Run Reply := do
  let n ← numberArg args 1
  if n = 0 then illegalNumber (args.headD "")
  let loops := (← get).loops
  if loops = 0 then silent 0
  else
    modify fun s => { s with status := 0 }
    throw (jump (min n loops))

/-- Set options and arguments. -/
def setAll (args : List String) : Run Reply := do
  let s ← get
  if args.isEmpty then
    return (0, listVariables s (fun v => v.value.isSome) "")
  match readOptions false { options := s.options, rest := args } (args.length + 1) with
  | .error text => fail text
  | .ok r =>
    modify fun s => { s with options := r.options }
    if !r.rest.isEmpty || r.ended then modify fun s => { s with args := r.rest }
    silent 0

/-- Drop arguments. -/
def shift (args : List String) : Run Reply := do
  let n ← numberArg args 1
  let s ← get
  if s.args.length < n then fail "can't shift that many"
  set { s with args := s.args.drop n }
  silent 0

/-- Write arguments in a format. -/
def printf (args : List String) : Run Reply := do
  let args := match args with
    | "--" :: rest => rest
    | args => args
  match args with
  | [] => fail "usage: printf format [arg ...]"
  | format :: rest =>
    match format.toList with
    | '-' :: c :: _ => if format != "-" then fail ("Illegal option -" ++ String.singleton c)
    | _ => pure ()
    let f := formatted format rest
    for c in f.complaints.reverse do
      warn c
    let text := String.ofList f.text.reverse
    match f.failure with
    | some reason =>
      warn reason
      return (2, text)
    | none => return (if f.complaints.isEmpty then 0 else 1, text)

/-- Test a condition. -/
def test (name : String) (args : List String) : Run Reply := do
  let s ← get
  let args ← if name == "[" then
      if args.getLast?.any (·.startsWith "]") then pure args.dropLast else fail "missing ]"
    else pure args
  match testCondition s.host s.streams 8 args with
  | .ok v => silent (if v then 0 else 1)
  | .error text => fail text

/-- Run the commands of a file. -/
def sourceFile (k : Kernel) (args : List String) : Run Reply := do
  match args.filter (· != "--") with
  | [] => silent 0
  | path :: _ =>
    let s ← get
    let found := if path.toList.contains '/' then some path else findSource? s path
    match found with
    | none => fail (path ++ ": not found")
    | some file =>
      match s.host.files.stat (Text.spelled file) with
      | .ok (.file content _) =>
        let status ← try k.source (Text.ofOctets content)
          catch
            | .back => pure (← get).status
            | j => throw j
        silent status
      | .ok .dir => silent 0
      | .error _ => fail ("cannot open " ++ path ++ ": No such file")

/-- Carry out a builtin command that neither starts programs nor depends on redirections. -/
def runBuiltin (k : Kernel) (name : String) (args : List String) : Run Reply := do
  match name with
  | ":" => silent 0
  | "true" => silent 0
  | "false" => silent 1
  | "echo" => return (0, echo args)
  | "printf" => printf args
  | "[" => test name args
  | "test" => test name args
  | "." => sourceFile k args
  | "eval" => silent (← k.source (" ".intercalate (args.filter (· != "--"))))
  | "exit" =>
    let n ← numberArg args (← get).status
    modify fun s => { s with status := n % 256 }
    throw .exit
  | "return" =>
    let n ← numberArg args (← get).status
    modify fun s => { s with status := n }
    throw .back
  | "break" => leaveLoops .leave args
  | "continue" => leaveLoops .again args
  | "set" => setAll args
  | "shift" => shift args
  | "unset" => unset false args
  | "export" =>
    declare "export " (fun v => v.exported) (fun v => { v with exported := true }) args
  | "readonly" =>
    declare "readonly " (fun v => v.fixed) (fun v => { v with fixed := true }) args
  | "local" => makeLocal args
  | "read" => read false args
  | "cd" => changeDirectory args
  | "chdir" => changeDirectory args
  | "pwd" => return (0, pathOf (← get).host.files.cwd ++ "\n")
  | "type" => return describeNames (← get) args
  | "trap" => trap args
  | "wait" =>
    let jobs := (← get).jobs
    match args with
    | [] => silent 0
    | n :: _ =>
      match count? n with
      | none => fail ("Illegal number: " ++ n)
      | some n => silent ((jobs.lookup n).getD 127)
  | "times" =>
    return (0, "0m0.000000s 0m0.000000s\n0m0.000000s 0m0.000000s\n")
  | "umask" =>
    match args with
    | [] => return (0, octalMask (← get).umask ++ "\n")
    | n :: _ =>
      if n.toList.all (isDigitOf 8) then
        modify fun s => { s with umask := digitsValue 8 n.toList }
        silent 0
      else fail ("Illegal mode: " ++ n)
  | _ => silent 0

end StackLang.Shell

import StackLang.Shell.Session
import StackLang.Shell.Format

/-!
# Programs of the system

The few programs that scripts find on the system, as functions on the host.  A program has a name,
under which it complains, and ends with a status.
-/

set_option autoImplicit false

namespace StackLang.Shell

/-- The programs of the system. -/
inductive Tool where
  | yes
  | no
  | sh
  | cat
  | cp
  | echo
  | printf
  | env
  deriving DecidableEq, Repr

/-- The program with a name. -/
def Tool.ofName? : String → Option Tool
  | "true" => some .yes
  | "false" => some .no
  | "sh" => some .sh
  | "dash" => some .sh
  | "cat" => some .cat
  | "cp" => some .cp
  | "echo" => some .echo
  | "printf" => some .printf
  | "env" => some .env
  | _ => none

/-- The program at an absolute path. -/
def Tool.ofPath? (path : String) : Option Tool :=
  match (Path.parts path).filter (fun part => part != "" && part != ".") with
  | ["bin", name] => if Path.isAbsolute path then ofName? name else none
  | ["usr", "bin", name] => if Path.isAbsolute path then ofName? name else none
  | _ => none

/-- A program at work. -/
structure Job where
  host : Host
  streams : Streams
  name : String
  status : Nat := 0

/-- Doing the work of a program. -/
abbrev Work := StateM Job

namespace Work

/-- Write to a stream. -/
def write (stream : Nat) (text : String) : Work Unit := modify fun j =>
  match j.host.put? j.streams stream text with
  | some host => { j with host }
  | none => j

/-- Complain, and fail in the end. -/
def complain (text : String) : Work Unit := do
  write 2 ((← get).name ++ ": " ++ text ++ "\n")
  modify fun j => { j with status := 1 }

/-- Complain about how the program was called. -/
def misused (text : String) : Work Unit := do
  complain (text ++ "\nTry '" ++ (← get).name ++ " --help' for more information.")

end Work

open Work

/-- The words of programs for an error. -/
def problem (e : Errno) : String := e.message.capitalize

/-! ## Names in complaints -/

/-- Whether a character cannot stand in a complaint as it is. -/
def isHidden (c : Char) : Bool := c.val < 0x20 || 0x7F ≤ c.val

/-- A hidden character behind a backslash. -/
def hiddenForm (c : Char) : List Char :=
  match c.toNat with
  | 7 => ['\\', 'a']
  | 8 => ['\\', 'b']
  | 9 => ['\\', 't']
  | 10 => ['\\', 'n']
  | 11 => ['\\', 'v']
  | 12 => ['\\', 'f']
  | 13 => ['\\', 'r']
  | n => '\\' :: (Nat.toDigits 8 (512 + n)).drop 1

/-- Characters between single quotes, where hidden ones have quotes of their own.  `hidden` says
whether these are open. -/
def quoteChars (hidden : Bool) : List Char → List Char
  | [] => []
  | c :: rest =>
    if isHidden c then
      (if hidden then [] else ['\'', '$', '\'']) ++ hiddenForm c ++ quoteChars true rest
    else
      (if hidden then ['\'', '\''] else []) ++
        (if c == '\'' then ['\'', '\\', '\'', '\''] else [c]) ++ quoteChars false rest

/-- A name between quotes. -/
def quotedName (s : String) : String :=
  let cs := s.toList
  let double := cs.contains '\'' && !cs.any fun c =>
    isHidden c || ['"', '$', '\\', '!', '&', '(', ')', '*', ';', '<', '=', '>', '[', '^', '|',
      '\x60', '?'].contains c
  if double then "\"" ++ s ++ "\"" else "'" ++ String.ofList (quoteChars false cs) ++ "'"

/-- A name, between quotes if it needs them. -/
def shownName (s : String) : String :=
  let cs := s.toList
  let special := cs.any fun c => isHidden c ||
    [' ', '!', '"', '$', '&', '\'', '(', ')', '*', ';', '<', '=', '>', '?', '[', '\\', '^', '|',
      '\x60'].contains c
  let first := cs.head? == some '#' || cs.head? == some '~' || cs == ['\x7b'] || cs == ['\x7d']
  if cs.isEmpty || special || first then quotedName s else s

/-! ## Options -/

/-- The options of a program and its operands. -/
structure Choices where
  letters : List Char := []
  operands : List String := []

/-- The options among arguments.  They may stand between operands; two dashes end them. -/
def choicesOf (known : List Char) (long : List (String × Char)) :
    List String → Except String Choices
  | [] => .ok {}
  | "--" :: rest => .ok { operands := rest }
  | arg :: rest =>
    let next (letters : List Char) (operands : List String) : Except String Choices :=
      (choicesOf known long rest).map fun c =>
        { letters := letters ++ c.letters, operands := operands ++ c.operands }
    match arg.toList with
    | '-' :: '-' :: name =>
      let name := String.ofList name
      match long.lookup name, long.filter fun (n, _) => n.startsWith name with
      | some c, _ => next [c] []
      | none, [(_, c)] => next [c] []
      | none, [] => .error ("unrecognized option '" ++ arg ++ "'")
      | none, several =>
        .error ("option '" ++ arg ++ "' is ambiguous; possibilities: " ++
          " ".intercalate (several.map fun (n, _) => "'--" ++ n ++ "'"))
    | '-' :: c :: more =>
      match (c :: more).find? fun c => !known.contains c with
      | some bad => .error ("invalid option -- '" ++ String.singleton bad ++ "'")
      | none => next (c :: more) []
    | _ => next [] [arg]

/-! ## Writing files out -/

/-- How text is shown. -/
structure View where
  number : Bool
  numberFilled : Bool
  squeeze : Bool
  ends : Bool
  tabs : Bool
  hidden : Bool

/-- The view that letters ask for. -/
def View.ofLetters (letters : List Char) : View where
  number := letters.contains 'n'
  numberFilled := letters.contains 'b'
  squeeze := letters.contains 's'
  ends := ['A', 'e', 'E'].any letters.contains
  tabs := ['A', 't', 'T'].any letters.contains
  hidden := ['A', 'e', 't', 'v'].any letters.contains

/-- Whether text is shown as it is. -/
def View.isPlain (v : View) : Bool :=
  !(v.number || v.numberFilled || v.squeeze || v.ends || v.tabs || v.hidden)

/-- An octet in a view that shows hidden ones. -/
def caretForm (c : Char) : List Char :=
  let low (n : Nat) : List Char :=
    if n < 32 then ['^', Char.ofNat (n + 64)]
    else if n = 127 then ['^', '?']
    else [Char.ofNat n]
  if c.toNat < 128 then low c.toNat else 'M' :: '-' :: low (c.toNat - 128)

/-- Where a view has come to in its text. -/
structure Viewing where
  lines : Nat := 0
  atStart : Bool := true
  /-- How many empty lines have come last. -/
  empty : Nat := 0

/-- The number of a line. -/
def lineNumber (n : Nat) : List Char :=
  let digits := (toString n).toList
  List.replicate (6 - digits.length) ' ' ++ digits ++ ['\t']

/-- Text in a view. -/
def View.show (v : View) (w : Viewing) : List Char → List Char × Viewing
  | [] => ([], w)
  | c :: rest =>
    let lineEnd := c == '\n'
    let isEmpty := lineEnd && w.atStart
    if isEmpty && v.squeeze && 1 ≤ w.empty then v.show w rest
    else
      let numbered := w.atStart && (if v.numberFilled then !lineEnd else v.number)
      let lines := if numbered then w.lines + 1 else w.lines
      let shown :=
        if lineEnd then if v.ends then ['$', '\n'] else ['\n']
        else if c == '\t' then if v.tabs then ['^', 'I'] else ['\t']
        else if v.hidden then caretForm c
        else if c == '\r' && v.ends && rest.head? == some '\n' then ['^', 'M']
        else [c]
      let (more, w) := v.show
        { lines, atStart := lineEnd, empty := if isEmpty then w.empty + 1 else 0 } rest
      ((if numbered then lineNumber lines else []) ++ shown ++ more, w)

/-- The place of the file that a stream leads to, and the offset at which it is written. -/
def Job.outputPlace (j : Job) : Option (Location × Nat) :=
  match (j.streams.lookup 1).bind (j.host.openings[·]?) with
  | some (.file place offset append _ _) =>
    some (place, if append then (j.host.octetsAt place).length else offset)
  | _ => none

/-- The place of the file that is read as the input. -/
def Job.inputPlace (j : Job) : Option (Location × Nat) :=
  match (j.streams.lookup 0).bind (j.host.openings[·]?) with
  | some (.file place offset _ _ _) => some (place, offset)
  | _ => none

/-- The text of a file, unless it is being written at the same time. -/
def readOperand (path : String) : Work (Option String) := do
  let j ← get
  let isOutput (place : Location) (offset : Nat) : Bool :=
    match j.outputPlace with
    | some (p, n) => p == place && offset < n
    | none => false
  let clash : Work (Option String) := do
    complain (shownName path ++ ": input file is output file")
    return none
  if path == "-" then
    match j.streams.lookup 0 with
    | none =>
      complain "-: Bad file descriptor"
      return none
    | some i =>
      match j.inputPlace with
      | some (place, offset) =>
        if j.host.files.isDirAt place then
          complain ("-: " ++ problem .isDirectory)
          return none
        if isOutput place offset then return ← clash
      | none => pure ()
      match j.host.unread? i with
      | some text =>
        set { j with host := j.host.consume i text.length }
        return some text
      | none =>
        complain "-: Bad file descriptor"
        return none
  else if path == "/dev/null" then return some ""
  else
    let spelled := Text.spelled path
    match j.host.files.stat spelled, j.host.files.resolve spelled with
    | .ok (.file content _), .ok place =>
      if isOutput place 0 then clash else return some (Text.ofOctets content)
    | .ok (.file content _), .error _ => return some (Text.ofOctets content)
    | .ok .dir, _ =>
      complain (shownName path ++ ": " ++ problem .isDirectory)
      return none
    | .error e, _ =>
      complain (shownName path ++ ": " ++ problem e)
      return none

/-- Write the contents of files. -/
def catAll (v : View) (w : Viewing) : List String → Work Unit
  | [] => return
  | path :: rest => do
    match ← readOperand path with
    | none => catAll v w rest
    | some text =>
      if v.isPlain then
        write 1 text
        catAll v w rest
      else
        let (shown, w) := v.show w text.toList
        write 1 (String.ofList shown)
        catAll v w rest

/-- The long names of the options for writing files out. -/
def catOptions : List (String × Char) :=
  [("number-nonblank", 'b'), ("number", 'n'), ("squeeze-blank", 's'), ("show-nonprinting", 'v'),
    ("show-ends", 'E'), ("show-tabs", 'T'), ("show-all", 'A')]

/-- Write the contents of files one after the other. -/
def cat (args : List String) : Work Unit := do
  match choicesOf ['b', 'e', 'n', 's', 't', 'u', 'v', 'A', 'E', 'T'] catOptions args with
  | .error text => misused text
  | .ok c =>
    if ((← get).streams.lookup 1).isNone then complain "standard output: Bad file descriptor"
    else
      catAll (.ofLetters c.letters) {} (if c.operands.isEmpty then ["-"] else c.operands)

/-! ## Copying files -/

/-- How files are copied. -/
structure Copying where
  directories : Bool
  verbose : Bool
  keep : Bool
  /-- Whether a target is never taken for the directory to copy into. -/
  exact : Bool

/-- The target of a copy in a directory. -/
def targetIn (dir source : String) : String :=
  let parts := (Path.parts source).filter (· != "")
  dir ++ (if dir.endsWith "/" then "" else "/") ++ parts.getLastD ""

/-- Whether a path leads to a directory. -/
def isDirectory (files : Files) (path : String) : Bool :=
  match files.stat (Text.spelled path) with
  | .ok .dir => true
  | _ => false

/-- Copy a file. -/
def copyContent (o : Copying) (source target : String) (content : List UInt8)
    (executable : Bool) : Work Unit := do
  let files := (← get).host.files
  let place (path : String) := (files.resolve (Text.spelled path)).toOption
  match files.stat (Text.spelled target) with
  | .error .notDirectory =>
    if target.endsWith "/" then
      complain ("cannot create regular file " ++ quotedName target ++ ": " ++
        problem .notDirectory)
    else complain ("cannot stat " ++ quotedName target ++ ": " ++ problem .notDirectory)
  | .ok .dir =>
    complain ("cannot overwrite directory " ++ quotedName target ++ " with non-directory")
  | found =>
    if place source == place target && (place target).isSome then
      complain (quotedName source ++ " and " ++ quotedName target ++ " are the same file")
    else if o.keep && found.toOption.isSome then return
    else
      let fail (e : Errno) : Work Unit :=
        complain ("cannot create regular file " ++ quotedName target ++ ": " ++ problem e)
      match files.writeFile (Text.spelled target) content executable with
      | .ok files =>
        modify fun j => { j with host := { j.host with files } }
        if o.verbose then write 1 (quotedName source ++ " -> " ++ quotedName target ++ "\n")
      | .error e =>
        if target.endsWith "/" && e.errno = .isDirectory then fail .notDirectory
        else fail e.errno

/-- The names in a directory, in order. -/
def childrenOf (files : Files) (place : Location) : List String :=
  files.entries.filterMap fun (p, _) =>
    if p.length == place.length + 1 && place.isPrefixOf p then p.getLast?.map Text.octets else none

/-- Copy what a path leads to, directories with all that is in them down to a depth. -/
def copyTo (o : Copying) : (depth : Nat) → (source target : String) → Work Unit
  | 0, _, _ => return
  | depth + 1, source, target => do
    let files := (← get).host.files
    match files.stat (Text.spelled source), files.resolve (Text.spelled source) with
    | .ok (.file content executable), _ => copyContent o source target content executable
    | .ok .dir, .ok place =>
      if !o.directories then
        complain ("-r not specified; omitting directory " ++ quotedName source)
      else
        match files.stat (Text.spelled target) with
        | .ok (.file _ _) =>
          complain ("cannot overwrite non-directory " ++ quotedName target ++
            " with directory " ++ quotedName source)
        | found =>
          let children := childrenOf files place
          let inside := match files.spotOf (Text.spelled target) with
            | .ok spot => place.isPrefixOf spot.dir
            | .error _ => false
          if inside then
            complain ("cannot copy a directory, " ++ quotedName source ++ ", into itself, " ++
              quotedName target)
          else
            let made : Except FileError Files :=
              if found.toOption.isSome then .ok files else files.mkdir (Text.spelled target)
            match made with
            | .error e =>
              complain ("cannot create directory " ++ quotedName target ++ ": " ++
                problem e.errno)
            | .ok files =>
              modify fun j => { j with host := { j.host with files } }
              if o.verbose && found.toOption.isNone then
                write 1 (quotedName source ++ " -> " ++ quotedName target ++ "\n")
              for name in children do
                copyTo o depth (targetIn source name) (targetIn target name)
    | .ok .dir, .error e => complain ("cannot stat " ++ quotedName source ++ ": " ++ problem e)
    | .error e, _ => complain ("cannot stat " ++ quotedName source ++ ": " ++ problem e)

/-- How deep directories are copied. -/
def copyDepth : Nat := 1000

/-- Copy files into a directory.  A name that is given again is skipped. -/
def copyInto (o : Copying) (dir : String) (seen : List String) : List String → Work Unit
  | [] => return
  | source :: rest => do
    let files := (← get).host.files
    if seen.contains source && !isDirectory files source then
      write 2 ((← get).name ++ ": warning: source file " ++ quotedName source ++
        " specified more than once\n")
    else copyTo o copyDepth source (targetIn dir source)
    copyInto o dir (source :: seen) rest

/-- The long names of the options for copying. -/
def cpOptions : List (String × Char) :=
  [("archive", 'a'), ("force", 'f'), ("no-target-directory", 'T'), ("recursive", 'r'),
    ("verbose", 'v')]

/-- Copy a file, or several into a directory. -/
def cp (args : List String) : Work Unit := do
  match choicesOf ['a', 'd', 'f', 'p', 'r', 'v', 'H', 'L', 'P', 'R', 'T', 'n', 'u', 'x'] cpOptions
      args with
  | .error text => misused text
  | .ok c =>
    let o : Copying :=
      { directories := ['a', 'r', 'R'].any c.letters.contains
        verbose := c.letters.contains 'v'
        keep := c.letters.contains 'n'
        exact := c.letters.contains 'T' }
    if o.keep then
      write 2 ((← get).name ++ ": warning: behavior of -n is non-portable and may change in " ++
        "future; use --update=none instead\n")
    let files := (← get).host.files
    match c.operands.reverse with
    | [] => misused "missing file operand"
    | [one] => misused ("missing destination file operand after " ++ quotedName one)
    | [target, source] =>
      if !o.exact && isDirectory files target then
        copyInto o target [] [source]
      else copyTo o copyDepth source target
    | target :: sources =>
      if o.exact then misused ("extra operand " ++ quotedName target)
      else
        match files.stat (Text.spelled target) with
        | .ok .dir => copyInto o target [] sources.reverse
        | .ok (.file _ _) =>
          complain ("target " ++ quotedName target ++ ": " ++ problem .notDirectory)
        | .error e => complain ("target " ++ quotedName target ++ ": " ++ problem e)

/-! ## Writing arguments -/

/-- The options of the program that repeats its arguments, which are all in front: whether a line
end follows, whether escapes count, and the rest. -/
def echoOptions (line escapes : Bool) : List String → Bool × Bool × List String
  | [] => (line, escapes, [])
  | arg :: rest =>
    match arg.toList with
    | '-' :: c :: more =>
      if (c :: more).all fun c => c == 'n' || c == 'e' || c == 'E' then
        let letters := c :: more
        let last := letters.reverse.find? fun c => c != 'n'
        echoOptions (line && !letters.contains 'n')
          (match last with
            | some 'e' => true
            | some _ => false
            | none => escapes) rest
      else (line, escapes, arg :: rest)
    | _ => (line, escapes, arg :: rest)

/-- Repeat the arguments. -/
def echoArgs (args : List String) : Work Unit := do
  let (line, escapes, args) := echoOptions true false args
  let text := " ".intercalate args
  if escapes then
    let (cs, stop) := unescape text.toList
    write 1 (String.ofList cs ++ (if line && !stop then "\n" else ""))
  else write 1 (text ++ (if line then "\n" else ""))

/-- Write arguments in a format. -/
def printArgs (args : List String) : Work Unit := do
  match args with
  | [] => misused "missing operand"
  | format :: args =>
    let f := formatted format args
    for c in f.complaints.reverse do
      complain c
    write 1 (String.ofList f.text.reverse)
    match f.failure with
    | some text => complain text
    | none => return

end StackLang.Shell

import StackLang.Text.Utf8

/-!
# File trees

Directories and files, reached by paths from a working directory.  A file holds octets, which need
not be text.  A path is followed step by step: every directory on it has to be there, even one that
is left again by `..`.
-/

set_option autoImplicit false

namespace StackLang

/-- Why a file operation fails. -/
inductive Errno where
  | noEntry
  | alreadyThere
  | notDirectory
  | isDirectory
  | permission
  | execFormat
  | nameTooLong
  | invalidArgument
  | tooManyLinks
  deriving DecidableEq, Repr

/-- The system's words for an error. -/
def Errno.message : Errno → String
  | noEntry => "no such file or directory"
  | alreadyThere => "file exists"
  | notDirectory => "not a directory"
  | isDirectory => "is a directory"
  | permission => "permission denied"
  | execFormat => "exec format error"
  | nameTooLong => "file name too long"
  | invalidArgument => "invalid argument"
  | tooManyLinks => "too many levels of symbolic links"

/-- A failed operation on a path. -/
structure FileError where
  op : String
  path : String
  errno : Errno
  deriving DecidableEq, Repr

/-- The operation, the path and the reason. -/
def FileError.message (e : FileError) : String :=
  e.op ++ " " ++ e.path ++ ": " ++ e.errno.message

/-- What a path leads to. -/
inductive Entry where
  | dir
  | file (content : List UInt8) (executable : Bool)
  deriving DecidableEq, Repr

/-- The names on the way from the root. -/
abbrev Location := List String

/-- The greatest number of octets of a name. -/
def nameLimit : Nat := 255

/-- The greatest number of octets of a path. -/
def pathLimit : Nat := 4095

/-- Whether a path can be followed at all: it is not empty, holds no NUL and is not too long. -/
def checkPath (path : String) : Except Errno Unit :=
  if path.toList.contains (Char.ofNat 0) then .error .invalidArgument
  else if path == "" then .error .noEntry
  else if pathLimit < path.utf8ByteSize then .error .nameTooLong
  else .ok ()

/-! ## Paths as text -/

namespace Path

/-- The parts of a path, between its slashes.  `part` holds the characters of the part that has been
begun, in reverse. -/
def partsFrom (part : List Char) : List Char → List String
  | [] => [String.ofList part.reverse]
  | c :: rest =>
    if c == '/' then String.ofList part.reverse :: partsFrom [] rest else partsFrom (c :: part) rest

/-- The parts of a path, between its slashes. -/
def parts (path : String) : List String := partsFrom [] path.toList

/-- Whether a path starts at the root. -/
def isAbsolute (path : String) : Bool := path.toList.head? == some '/'

/-- The text before the last slash, and the text after it. -/
def splitLast (path : String) : Option String × String :=
  match (parts path).reverse with
  | [] => (none, "")
  | [name] => (none, name)
  | name :: rest => (some ("/".intercalate rest.reverse), name)

/-- Drop the empty and `.` parts of a path and resolve `..` against the part before it.  `done`
holds the parts kept, in reverse; above the root there is nothing, while a relative path keeps
leading `..`. -/
def cleanParts (rooted : Bool) (done : List String) : List String → List String
  | [] => done.reverse
  | part :: rest =>
    if part == "" || part == "." then cleanParts rooted done rest
    else if part == ".." then
      match done with
      | [] => if rooted then cleanParts rooted [] rest else cleanParts rooted [part] rest
      | last :: more =>
        if last == ".." then cleanParts rooted (part :: done) rest
        else cleanParts rooted more rest
    else cleanParts rooted (part :: done) rest

/-- The shortest path that names the same place. -/
def clean (path : String) : String :=
  let rooted := isAbsolute path
  let text := "/".intercalate (cleanParts rooted [] (parts path))
  if rooted then "/" ++ text else if text == "" then "." else text

/-- The directory part of a path. -/
def dir (path : String) : String :=
  match splitLast path with
  | (none, _) => "."
  | (some d, _) => clean (d ++ "/")

/-- A path to run: one without a directory part is taken in the working directory. -/
def executable (path : String) : String :=
  if isAbsolute path || dir path != "." then path else "./" ++ path

end Path

/-! ## Trees -/

/-- Files and directories below a root, and a working directory. -/
structure Files where
  entries : List (Location × Entry) := []
  cwd : Location := []

namespace Files

/-- What is at a place. -/
def at? (t : Files) (p : Location) : Option Entry :=
  if p.isEmpty then some .dir else t.entries.lookup p

/-- Whether a directory is at a place. -/
def isDirAt (t : Files) (p : Location) : Bool := t.at? p == some .dir

/-- Put an entry at a place. -/
def put (t : Files) (p : Location) (e : Entry) : Files :=
  if (t.entries.lookup p).isSome then
    { t with entries := t.entries.map fun (q, old) => if q == p then (q, e) else (q, old) }
  else { t with entries := t.entries ++ [(p, e)] }

/-- Remove a place and all below it. -/
def removeAll (t : Files) (p : Location) : Files :=
  { t with entries := t.entries.filter fun (q, _) => !p.isPrefixOf q }

/-- Take one step on a path. -/
def stepTo (t : Files) (here : Location) (name : String) : Except Errno Location :=
  if !t.isDirAt here then .error .notDirectory
  else if name == "" || name == "." then .ok here
  else if name == ".." then .ok here.dropLast
  else if nameLimit < name.utf8ByteSize then .error .nameTooLong
  else
    let next := here ++ [name]
    if (t.at? next).isSome then .ok next else .error .noEntry

/-- Take the steps of a path. -/
def follow (t : Files) (here : Location) : List String → Except Errno Location
  | [] => .ok here
  | name :: rest => do
    let next ← t.stepTo here name
    t.follow next rest

/-- The place that a path leads to. -/
def resolve (t : Files) (path : String) : Except Errno Location := do
  checkPath path
  t.follow (if Path.isAbsolute path then [] else t.cwd) (Path.parts path)

/-- What a path leads to. -/
def stat (t : Files) (path : String) : Except Errno Entry := do
  let p ← t.resolve path
  match t.at? p with
  | some e => .ok e
  | none => .error .noEntry

/-- Open a file for reading.  Opening a directory succeeds; reading it does not. -/
def openFile (t : Files) (path : String) : Except FileError Entry :=
  match t.stat path with
  | .ok e => .ok e
  | .error errno => .error ⟨"open", path, errno⟩

/-- The content of an open file. -/
def content (path : String) : Entry → Except FileError (List UInt8)
  | .file octets _ => .ok octets
  | .dir => .error ⟨"read", path, .isDirectory⟩

/-- Where a path creates something: the directory, the name in it, and whether slashes follow the
name. -/
structure Spot where
  dir : Location
  name : String
  slashed : Bool

/-- Whether a name stands for a directory that is there in any case. -/
def isDots (name : String) : Bool := name == "" || name == "." || name == ".."

/-- Where a path creates something.  All on the way to it has to be there. -/
def spotOf (t : Files) (path : String) : Except Errno Spot := do
  checkPath path
  let parts := (Path.parts path).reverse
  let bare := parts.dropWhile (· == "")
  let dir ← t.follow (if Path.isAbsolute path then [] else t.cwd) (bare.drop 1).reverse
  if !t.isDirAt dir then throw .notDirectory
  return { dir, name := bare.headD "", slashed := bare.length < parts.length }

/-- Write a file, creating it if needed.  A file that is there keeps its mode. -/
def writeFile (t : Files) (path : String) (content : List UInt8) (executable : Bool) :
    Except FileError Files :=
  let attempt : Except Errno Files := do
    let spot ← t.spotOf path
    if isDots spot.name || spot.slashed then throw .isDirectory
    if nameLimit < spot.name.utf8ByteSize then throw .nameTooLong
    let p := spot.dir ++ [spot.name]
    match t.at? p with
    | some .dir => throw .isDirectory
    | some (.file _ mode) => return t.put p (.file content mode)
    | none => return t.put p (.file content executable)
  attempt.mapError fun errno => ⟨"open", path, errno⟩

/-- Create a directory. -/
def mkdir (t : Files) (path : String) : Except FileError Files :=
  let attempt : Except Errno Files := do
    let spot ← t.spotOf path
    if isDots spot.name then throw .alreadyThere
    if nameLimit < spot.name.utf8ByteSize then throw .nameTooLong
    let p := spot.dir ++ [spot.name]
    if (t.at? p).isSome then throw .alreadyThere
    return t.put p .dir
  attempt.mapError fun errno => ⟨"mkdir", path, errno⟩

/-- Create a directory and those on the way to it that are missing.  The path is given by its
parts, the last one first. -/
def mkdirParts (t : Files) : List String → Except FileError Files
  | [] => .ok t
  | name :: rest =>
    let path := "/".intercalate (name :: rest).reverse
    match t.stat path with
    | .ok .dir => .ok t
    | .ok (.file _ _) => .error ⟨"mkdir", path, .notDirectory⟩
    | .error _ =>
      if path == "" then .ok t
      else do
        let t ← t.mkdirParts rest
        t.mkdir path

/-- Create a directory and those on the way to it that are missing. -/
def mkdirAll (t : Files) (path : String) : Except FileError Files :=
  t.mkdirParts (Path.parts path).reverse

/-- The files below the working directory as text, by their path from there. -/
def workingFiles (t : Files) : List (String × String) :=
  t.entries.filterMap fun (p, e) =>
    match e with
    | .file content _ =>
      if t.cwd.isPrefixOf p then
        some ("/".intercalate (p.drop t.cwd.length), Text.decodeString content)
      else none
    | .dir => none

end Files

end StackLang

import StackLang.Shell.Expansion

/-!
# Redirections

A redirection opens a file, a device or a here-document for a stream, or leads it where another
stream goes.
-/

set_option autoImplicit false

namespace StackLang.Shell

open Run

/-- What a redirection does, its words expanded. -/
inductive Redirecting where
  | openAs (kind : RedirectKind) (path : String)
  /-- Go where another stream goes, or nowhere. -/
  | same (stream : Option Nat)
  | text (s : String)

/-- The words of the system for an error, with a capital letter. -/
def systemProblem (e : Errno) : String := e.message.capitalize

/-- The words of the shell for a file that cannot be created. -/
def createProblem : Errno → String
  | .noEntry => "Directory nonexistent"
  | .notDirectory => "Directory nonexistent"
  | e => systemProblem e

/-- The words of the shell for a file that cannot be opened. -/
def openProblem : Errno → String
  | .noEntry => "No such file"
  | .notDirectory => "No such file"
  | e => systemProblem e

/-- The stream that a path stands for. -/
def streamOf? (path : String) : Option Nat :=
  match path with
  | "/dev/stdin" => some 0
  | "/dev/stdout" => some 1
  | "/dev/stderr" => some 2
  | _ =>
    if path.startsWith "/dev/fd/" then (path.drop 8).toString.toNat? else none

/-- Open a file for writing, created if needed; its former content is kept or not. -/
def openForWriting (files : Files) (path : String) (keep : Bool) :
    Except Errno (Files × Location) := do
  match files.stat path, files.resolve path with
  | .ok (.file content _), .ok place =>
    let files ← (files.writeFile path (if keep then content else []) false).mapError (·.errno)
    return (files, place)
  | .ok .dir, _ => throw .isDirectory
  | _, _ =>
    let files ← (files.writeFile path [] false).mapError (·.errno)
    return (files, ← files.resolve path)

/-- Give a stream something that has been opened. -/
def connect (stream : Nat) (o : Opening) : Run Unit := modify fun s =>
  let (host, i) := s.host.add o
  { s with host, streams := Streams.set s.streams stream i }

/-- Open what another stream has open once more. -/
def reopen (stream other : Nat) (kind : RedirectKind) (path : String) : Run Unit := do
  let s ← get
  match s.streams.lookup other with
  | none =>
    if kind = .read then fail ("cannot open " ++ path ++ ": No such file")
    else fail ("cannot create " ++ path ++ ": Directory nonexistent")
  | some i =>
    match s.host.openings[i]? with
    | some (.file place _ _ _ _) =>
      let size := (s.host.octetsAt place).length
      match kind with
      | .read => connect stream (.file place 0 false true false)
      | .append => connect stream (.file place size true false true)
      | .readWrite => connect stream (.file place 0 false true true)
      | _ =>
        match s.host.files.at? place with
        | some (.file _ executable) =>
          modify fun s => { s with host := { s.host with
            files := s.host.files.put place (.file [] executable) } }
        | _ => pure ()
        connect stream (.file place 0 false false true)
    | _ => modify fun s => { s with streams := Streams.set s.streams stream i }

/-- Open a path for a stream. -/
def openPath (stream : Nat) (kind : RedirectKind) (path : String) : Run Unit := do
  let s ← get
  let spelled := Text.spelled path
  if path == "/dev/null" then connect stream .null
  else if path == "/dev/full" then connect stream .full
  else if path == "/dev/tty" then
    fail ("cannot " ++ (if kind = .read then "open " else "create ") ++ path ++
      ": No such device or address")
  else
    match streamOf? path with
    | some other => reopen stream other kind path
    | none =>
      match kind with
      | .read =>
        match s.host.files.stat spelled, s.host.files.resolve spelled with
        | .ok (.file _ _), .ok place => connect stream (.file place 0 false true false)
        | .ok .dir, .ok place => connect stream (.file place 0 false true false)
        | .ok _, .error e => fail ("cannot open " ++ path ++ ": " ++ openProblem e)
        | .error e, _ => fail ("cannot open " ++ path ++ ": " ++ openProblem e)
      | kind =>
        let taken := match s.host.files.stat spelled with
          | .ok (.file _ _) => true
          | _ => false
        if kind = .write false && s.options.keepFiles && taken then
          fail ("cannot create " ++ path ++ ": " ++ systemProblem .alreadyThere)
        let keep := kind = .append || kind = .readWrite
        match openForWriting s.host.files spelled keep with
        | .ok (files, place) =>
          set { s with host := { s.host with files } }
          let size := ((← get).host.octetsAt place).length
          connect stream (.file place (if kind = .append then size else 0) (kind = .append)
            (kind = .readWrite) true)
        | .error e => fail ("cannot create " ++ path ++ ": " ++ createProblem e)

/-- Carry out a redirection. -/
def perform (stream : Nat) : Redirecting → Run Unit
  | .openAs kind path => openPath stream kind path
  | .same none => modify fun s => { s with streams := Streams.close s.streams stream }
  | .same (some other) => do
    match (← get).streams.lookup other with
    | some i => modify fun s => { s with streams := Streams.set s.streams stream i }
    | none => fail (toString other ++ ": Bad file descriptor")
  | .text s => connect stream (.pipe s)

namespace Kernel

/-- Expand the words of redirections. -/
def expandRedirects (k : Kernel) : List Redirect → Run (List (Nat × Redirecting))
  | [] => return []
  | .mk stream kind target :: rest => do
    let r ← match kind with
      | .document number =>
        let body := (← get).documents.getD number []
        let bits ← k.expandParts false false nesting body
        pure (.text (String.ofList (Bit.text bits)))
      | .same _ =>
        let name ← k.expandText target
        match name.toList with
        | ['-'] => pure (.same none)
        | [c] =>
          if isDigit c then pure (.same (some (c.toNat - 48)))
          else badStream
        | _ => badStream
      | kind => pure (.openAs kind (← k.expandText target))
    return (stream, r) :: (← k.expandRedirects rest)
where
  /-- Refuse a stream that is not a digit. -/
  badStream : Run Redirecting := do
    modify fun s => { s with line := s.readLine }
    fail "Syntax error: Bad fd number"

/-- Carry out redirections from left to right.  The answer says whether all succeeded. -/
def performAll (rs : List (Nat × Redirecting)) : Run Bool := do
  try
    for (stream, r) in rs do
      perform stream r
    return true
  catch _ => return false

end Kernel

end StackLang.Shell

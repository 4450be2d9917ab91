import StackLang.Shell.Builtin
import StackLang.Shell.Grammar
import StackLang.Shell.Redirection

/-!
# Running commands

What commands do to a session.  A command inside another one is run by the kernel, so nothing here
is recursive on commands.
-/

set_option autoImplicit false

namespace StackLang.Shell

open Run

/-- What an action gives, or how it was left early. -/
def caught (action : Run Nat) : Run (Except Jump Nat) := do
  try
    return .ok (← action)
  catch j => return .error j

/-- Run an action, and put things right behind it in any case. -/
def afterwards {α : Type} (action : Run α) (always : Run Unit) : Run α := do
  let r ← try
      let a ← action
      always
      pure a
    catch j =>
      always
      throw j
  return r

/-- Set the status.  A failure that nobody looks at ends the script, if that is wanted. -/
def checked (tested : Bool) (status : Nat) : Run Nat := do
  modify fun s => { s with status }
  if !tested && status != 0 && (← get).options.exitOnFailure then throw .exit
  return status

/-- Note the line of the command that is running. -/
def atLine (line : Nat) : Run Unit := modify fun s => { s with line }

/-! ## Simple commands -/

/-- The commands whose arguments can be assignments. -/
def declarations : List String := ["export", "readonly", "local"]

namespace Kernel

/-- The words of a simple command. -/
def expandWords (k : Kernel) (done : List String) : List Word → Run (List String)
  | [] => return done
  | w :: rest => do
    let command := (done.dropWhile (· == "command")).head?
    let asText := command.any declarations.contains && (Word.assignment? w).isSome
    let more ← if asText then
        let text ← k.expandText w
        pure [text]
      else k.expand w
    k.expandWords (done ++ more) rest

/-- The values of assignments. -/
def expandAssigns (k : Kernel) : List Word → Run (List (String × String))
  | [] => return []
  | w :: rest => do
    match Word.assignment? w with
    | none => k.expandAssigns rest
    | some (name, value) =>
      let v ← k.expandText value
      return (name, v) :: (← k.expandAssigns rest)

end Kernel

/-- Put back variables as they were. -/
def restoreVariables (saved : List (String × Option Variable)) : Run Unit :=
  modify fun s => saved.foldl (fun s (name, v) => s.putVariable name v) s

/-- Give variables values for one command only, which finds them in its environment.  The answer
is how they were before. -/
def lend : List (String × String) → Run (List (String × Option Variable))
  | [] => return []
  | (name, value) :: rest => do
    let old := (← get).vars.lookup name
    assign name value
    modify fun s =>
      s.putVariable name (some { value := some value, exported := true,
                                 fixed := (old.map Variable.fixed).getD false })
    return (← lend rest) ++ [(name, old)]

/-- Complain that a program cannot be started. -/
def cannotStart (name : String) (e : Errno) : Run Nat := do
  match e with
  | .noEntry => do warn (name ++ ": not found"); return 127
  | .notDirectory => do warn (name ++ ": not found"); return 127
  | .nameTooLong => do warn (name ++ ": " ++ systemProblem e); return 127
  | e => do warn (name ++ ": " ++ systemProblem e); return 126

namespace Kernel

/-- Start a program. -/
def runProgram (k : Kernel) (name : String) (args : List String) : Run Nat := do
  let s ← get
  let found := if name.toList.contains '/' then .ok name
    else findProgram s name .noEntry s.programDirs
  match found with
  | .error e =>
    let _ ← cannotStart name e
    return 127
  | .ok path =>
    match ← k.start path name args with
    | .ok status => return status
    | .error e => cannotStart name e

/-- Call a function. -/
def runFunction (k : Kernel) (tested : Bool) (body : Command) (args : List String) :
    Run Nat := do
  let s ← get
  set { s with args, loops := 0, locals := some [] }
  let finish : Run Unit := do
    restoreVariables ((← get).locals.getD [])
    modify fun t => { t with args := s.args, loops := s.loops, locals := s.locals }
  afterwards
    (try k.run tested body
      catch
        | .back => pure (← get).status
        | j => throw j)
    finish

/-- Carry out a builtin command.  One that is not special survives its own failure. -/
def callBuiltin (k : Kernel) (special : Bool) (name : String) (args : List String) :
    Run Nat := do
  let outer := (← get).builtin
  modify fun s => { s with builtin := some name }
  let run : Run Nat := do
    let (status, text) ← try runBuiltin k name args
      catch
        | .failed => if special then throw .failed else pure (2, "")
        | j => throw j
    if ← write 1 text then return status
    else
      warn (name ++ ": I/O error")
      return status ||| 1
  afterwards run (modify fun s => { s with builtin := outer })

/-- Replace the shell by a program. -/
def execProgram (k : Kernel) (name : String) (args : List String) : Run Nat := do
  modify fun s => { s with builtin := some "exec" }
  let status ← k.runProgram name args
  modify fun s => { s with status, atExit := none }
  throw .exit

end Kernel

/-- What the first word of a command calls. -/
inductive Callee where
  | nothing
  | special
  | function (body : Command)
  | regular
  | program

/-- What a name calls.  `plain` says whether functions are passed over. -/
def Session.callee (s : Session) (plain : Bool) (name : String) : Callee :=
  if specialBuiltins.contains name then if plain then .regular else .special
  else
    match if plain then none else s.functions.lookup name with
    | some (_, body) => .function body
    | none => if regularBuiltins.contains name then .regular else .program

/-- What the words in front of a command say about it. -/
inductive Manner where
  | ordinary
  /-- Functions are passed over. -/
  | plain
  /-- The command is not run but described, in words or shortly. -/
  | described (short : Bool)
  /-- There is no such option. -/
  | unknown (letter : Char)

/-- The options in front of a command that is to be run in another manner. -/
def readManner (m : Manner) : List String → Manner × List String
  | [] => (m, [])
  | "--" :: rest => (m, rest)
  | word :: rest =>
    match word.toList with
    | '-' :: c :: more =>
      match (c :: more).find? fun c => !List.contains ['p', 'v', 'V'] c with
      | some bad => (.unknown bad, [])
      | none =>
        if more.contains 'v' || c == 'v' then readManner (.described true) rest
        else if more.contains 'V' || c == 'V' then readManner (.described false) rest
        else readManner m rest
    | _ => (m, word :: rest)

/-- The manner in which a command is to be run, and its words. -/
def stripManner (m : Manner) : (fuel : Nat) → List String → Manner × List String
  | 0, words => (m, words)
  | n + 1, "command" :: rest =>
    match readManner .plain rest with
    | (.plain, words) => stripManner .plain n words
    | found => found
  | _, words => (m, words)

/-- A command as it is shown before it runs. -/
def shownCommand (assigns : List (String × String)) (words : List String) : String :=
  "+ " ++ " ".intercalate (assigns.map (fun (n, v) => n ++ "=" ++ v) ++ words) ++ "\n"

namespace Kernel

/-- Run a command given by its expanded words. -/
def runWords (k : Kernel) (tested : Bool) (callee : Callee) : List String → Run Nat
  | [] => return (← get).outputStatus
  | name :: args => do
    match callee with
    | .function body => k.runFunction tested body args
    | .special =>
      if name == "exec" then
        match args with
        | [] => return 0
        | program :: args => k.execProgram program args
      else k.callBuiltin true name args
    | .regular => k.callBuiltin false name args
    | .program => k.runProgram name args
    | .nothing => return 0

/-- Run a simple command. -/
def runSimple (k : Kernel) (tested : Bool) (line : Nat) (assigns words : List Word)
    (redirects : List Redirect) : Run Nat := do
  atLine line
  modify fun s => { s with outputStatus := 0 }
  let words ← k.expandWords [] words
  let (manner, words) := stripManner .ordinary words.length words
  let plain := match manner with
    | .ordinary => false
    | _ => true
  let s ← get
  let callee := match words with
    | [] => .nothing
    | name :: _ => s.callee plain name
  let special := match callee with
    | .special => true
    | _ => false
  let rs ← k.expandRedirects redirects
  let streams := s.streams
  let restore : Run Unit := modify fun s => { s with streams }
  if !(← performAll rs) then
    restore
    if special then
      modify fun s => { s with status := 2 }
      throw .failed
    return ← checked tested 2
  let action : Run Nat := do
    let values ← k.expandAssigns assigns
    let persistent := special || words.isEmpty
    let saved ← if persistent then do
        for (name, value) in values do
          assign name value
        pure []
      else lend values
    let s ← get
    if s.options.showCommands && !(values.isEmpty && words.isEmpty) then
      let current := s.streams
      set { s with streams }
      let _ ← write 2 (shownCommand values words)
      modify fun s => { s with streams := current }
    match manner with
    | .described short =>
      let (status, text) := match words with
        | [] => (0, "")
        | name :: _ => describeName s short name
      let _ ← write 1 text
      return status
    | .unknown letter =>
      modify fun s => { s with builtin := some "command" }
      warn ("Illegal option -" ++ String.singleton letter)
      modify fun t => { t with builtin := s.builtin }
      return 2
    | _ => afterwards (k.runWords tested callee words) (restoreVariables saved)
  let keepsStreams := special && words == ["exec"]
  let status ← afterwards action (if keepsStreams then pure () else restore)
  checked tested status

/-! ## Compound commands -/

/-- Run commands of which each reads what the one before it writes.  `input` is what the first one
reads. -/
def runStages (k : Kernel) (input : Option Nat) : List Command → Run Nat
  | [] => return 0
  | [c] => k.apart do
    connectInput
    k.run false c
  | c :: rest => do
    let s ← get
    let (host, i) := s.host.add (.pipe "")
    set { s with host }
    let _ ← k.apart do
      connectInput
      modify fun s => { s with streams := Streams.set s.streams 1 i }
      k.run false c
    k.runStages (some i) rest
where
  /-- Read from the command before. -/
  connectInput : Run Unit := do
    match input with
    | some i => modify fun s => { s with streams := Streams.set s.streams 0 i }
    | none => pure ()

/-- Run a round of a loop.  The answer says whether the loop goes on. -/
def runRound (action : Run Nat) : Run Bool := do
  match ← caught action with
  | .ok _ => return true
  | .error (.leave n) =>
    if n ≤ 1 then return false
    modify fun s => { s with loops := s.loops - 1 }
    throw (.leave (n - 1))
  | .error (.again n) =>
    if n ≤ 1 then return true
    modify fun s => { s with loops := s.loops - 1 }
    throw (.again (n - 1))
  | .error j =>
    modify fun s => { s with loops := s.loops - 1 }
    throw j

/-- Run a loop with a test, for at most so many rounds.  Its status is that of its last round. -/
def runLoop (k : Kernel) (tested inverted : Bool) (test body : List Command) (status : Nat) :
    (rounds : Nat) → Run Nat
  | 0 => return status
  | n + 1 => do
    let s ← get
    let goesOn ← runRound (do
      let t ← k.runAll true test
      setStatus (if (t == 0) != inverted then 0 else 1))
    if !goesOn then return (← get).status
    if (← get).status != 0 then
      modify fun t => { t with status := s.status }
      return status
    if ← runRound (do setStatus (← k.runAll tested body)) then
      k.runLoop tested inverted test body (← get).status n
    else return (← get).status

/-- Run commands for each of several words. -/
def runEach (k : Kernel) (tested : Bool) (name : String) (body : List Command) (status : Nat) :
    List String → Run Nat
  | [] => return status
  | w :: rest => do
    assign name w
    if ← runRound (do setStatus (← k.runAll tested body)) then
      k.runEach tested name body (← get).status rest
    else return (← get).status

/-- Whether one of several patterns matches a text. -/
def anyMatches (k : Kernel) (text : List Char) : List Word → Run Bool
  | [] => return false
  | w :: rest => do
    let pattern ← k.expandPattern w
    if isMatch pattern text then return true else k.anyMatches text rest

/-- Run the commands of the first case that matches. -/
def runCases (k : Kernel) (tested : Bool) (text : List Char) :
    List (List Word × List Command) → Run Nat
  | [] => return 0
  | (patterns, body) :: rest => do
    if ← k.anyMatches text patterns then k.runAll tested body else k.runCases tested text rest

/-- The most rounds of a loop. -/
def roundLimit : Nat := 1000000

/-- Run a loop, which is counted while it runs. -/
def looping (action : Run Nat) : Run Nat := do
  modify fun s => { s with loops := s.loops + 1 }
  let status ← action
  modify fun s => { s with loops := s.loops - 1 }
  return status

/-- The number of the first command in the background. -/
def firstJob : Nat := 2

/-- Run an action with redirections, unless one of them fails. -/
def redirecting (k : Kernel) (redirects : List Redirect) (action : Run Nat) : Run Nat := do
  let rs ← k.expandRedirects redirects
  let streams := (← get).streams
  let restore : Run Unit := modify fun s => { s with streams }
  if ← performAll rs then afterwards action restore
  else
    restore
    return 2

/-- Run a command. -/
def runCommand (k : Kernel) (tested : Bool) (c : Command) : Run Nat := do
  if (← get).options.readOnly then return 0
  match c with
  | .simple line assigns words redirects => k.runSimple tested line assigns words redirects
  | .negated c => setStatus (if (← k.run true c) == 0 then 1 else 0)
  | .pipeline stages => checked tested (← k.runStages none stages)
  | .both a b => if (← k.run true a) == 0 then k.run tested b else return (← get).status
  | .either a b => if (← k.run true a) == 0 then return 0 else k.run tested b
  | .background c =>
    let status ← k.apart do
      connect 0 .null
      k.run false c
    modify fun s => { s with jobs := (firstJob + s.jobs.length, status) :: s.jobs }
    setStatus 0
  | .subshell line body redirects =>
    atLine line
    checked tested (← k.apart (k.redirecting redirects (k.runAll tested body)))
  | .block body => k.runAll tested body
  | .redirected line body redirects =>
    atLine line
    setStatus (← k.redirecting redirects (k.run tested body))
  | .choice test yes no =>
    if (← k.runAll true test) == 0 then setStatus (← k.runAll tested yes)
    else setStatus (← k.runAll tested no)
  | .loop inverted test body =>
    setStatus (← looping (k.runLoop tested inverted test body 0 roundLimit))
  | .each line name words body =>
    atLine line
    let words ← k.expandWords [] words
    setStatus (← looping (k.runEach tested name body 0 words))
  | .select line subject cases =>
    atLine line
    let text ← k.expandText subject
    setStatus (← k.runCases tested text.toList cases)
  | .define line name body =>
    modify fun s =>
      { s with functions := (name, line, body) :: s.functions.filter fun (n, _) => n != name }
    setStatus 0

/-! ## Texts of commands -/

/-- Read and run the lines of a text, for at most so many. -/
def runLines (k : Kernel) (input : Input) (status : Nat) : (lines : Nat) → Run Nat
  | 0 => return status
  | n + 1 => do
    match readLine.run { input with documents := (← get).documents } with
    | .error m =>
      modify fun s => { s with line := m.line }
      fail ("Syntax error: " ++ m.reason)
    | .ok (none, _) => return status
    | .ok (some commands, input) =>
      modify fun s => { s with documents := input.documents, readLine := input.line }
      let status ← if commands.isEmpty then pure status else k.runAll false commands
      k.runLines input status n

/-- Read and run a text. -/
def runText (k : Kernel) (text : String) : Run Nat := do
  let cs := text.toList.filter (· != '\x00')
  k.runLines { rest := cs } 0 (cs.length + 1)

end Kernel

end StackLang.Shell

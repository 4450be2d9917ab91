import StackLang.Cli.Command
import StackLang.Config
import StackLang.Inspect
import StackLang.Load
import StackLang.Report

/-!
# Running the command line

From the arguments and the files to the exit status, what is written to the two output streams, and
the files afterwards.  A command line that cannot be carried out ends with status 2, a command that
fails with status 1.
-/

set_option autoImplicit false

namespace StackLang.Cli

/-- What the program leaves. -/
structure Outcome where
  exit : Nat
  out : String := ""
  err : String := ""
  files : Files

/-! ## Settings -/

/-- The settings of a command line: those of the file it names, and its flags on top. -/
def settings (files : Files) (g : Given) : Except Error Config := do
  let c ← match g.text? "config" with
    | none | some "" => .ok Config.standard
    | some path => (Config.load files path).mapError (.wrapped "loading configuration")
  let c := match g.text? "log-level" with
    | some level => { c with logLevel := level }
    | none => c
  let c := match g.text? "log-format" with
    | some format => { c with logFormat := format }
    | none => c
  return if g.has "compat-dupl" then { c with duplIsDump := g.isOn "compat-dupl" } else c

/-- The workbench of the settings. -/
def bench (c : Config) : Workbench Seconds :=
  { toolchain := .external
      { assembler := c.assembler, assemblerFlags := c.assemblerFlags,
        linker := c.linker, linkerFlags := c.linkerFlags }
    clock := .ofFrequency Clock.gigahertz
    trace := Text.lowerCase c.logLevel == "trace"
    shared := some .fresh }

/-! ## Programs -/

/-- Whether a file holds a listing and not source text. -/
def isListing (path : String) : Bool := ".yaml".toList.isSuffixOf path.toList

/-- The linked program of a file. -/
def loadLinked (c : Config) (files : Files) (path : String) : Except Error Program :=
  if isListing path then do
    let p ← Program.loadListing files path
    if p.linked then return p
    match p.link with
    | (p, none) => return p
    | (_, some e) => throw (.under path (Program.linkError e))
  else Program.loadFile files (Vocabulary.choose c.duplIsDump) path

/-- The linked program of a file, whose jumps have been checked if it is a listing. -/
def loadChecked (c : Config) (files : Files) (path : String) : Except Error Program := do
  let p ← loadLinked c files path
  let issues := p.lint
  if isListing path && !issues.isEmpty then
    throw (.wrapped path (.several (issues.map .issue)))
  return p

/-! ## Commands -/

/-- What a command leaves: the world, what it wrote, and how it failed, if it did. -/
structure Effect where
  world : World
  out : String := ""
  err : String := ""
  error : Option Error := none

/-- Run a program on a machine and show how the machine ended. -/
def simulateShowing (w : World) (p : Program) : Effect :=
  match Machine.ofProgram? p (Sink.buffer "") with
  | none => { world := w, error := some .unlinked }
  | some m =>
    let (m, status) := m.run
    let error := match status with
      | .faulted f => some (.fault f)
      | _ => none
    { world := w, out := m.out.text, err := m.describe, error }

/-- Run a program on a core and log the time it took. -/
def simulateTimed (c : Config) (w : World) (p : Program) : Effect :=
  let r := (bench c).simulateTimed w p (.buffer "")
  let w := r.world.note Log.Level.info "Timed simulation"
    [("Cycles", .int r.timing.cycles), ("Time", Timeline.logged r.timing.seconds)]
  { world := w, out := r.out.text, error := r.error }

/-- Print the code of a program. -/
def printCode (w : World) (p : Program) (format : String) : Effect :=
  match format with
  | "table" => { world := w, out := (Listing.table p).render ++ "\n" }
  | "yaml" =>
    match Listing.toYaml p with
    | .ok text => { world := w, out := text }
    | .error op => { world := w, error := some (.plain (Listing.invalidOpMessage op) false) }
  | _ => { world := w, error := some (.plain ("unknown format " ++ Text.quoted format) true) }

/-- Check a program and print the report. -/
def verify (c : Config) (g : Given) (w : World) (p : Program) : Effect :=
  let o : Report.Options :=
    { maxSteps := (g.number? "max-steps").getD defaultMaxSteps
      bench := if g.isOn "native" then some (bench c) else none
      output := (g.text? "output").getD "" }
  let (w, r) := Report.make o w p
  let saved : Except Error Files := match g.text? "report" with
    | none | some "" => .ok w.files
    | some path => r.save w.files path
  match saved with
  | .error e => { world := w, out := r.text, error := some e }
  | .ok files =>
    { world := { w with files }, out := r.text
      error := if r.ok then none else some (.plain "verification failed" true) }

/-- Carry out a verb on a program. -/
def act (v : Verb) (c : Config) (g : Given) (w : World) (p : Program) : Effect :=
  let output := (g.text? "output").getD c.output
  match v with
  | .sim =>
    if g.isOn "state" then simulateShowing w p
    else if g.isOn "timed" then simulateTimed c w p
    else
      let (w, out, error) := (bench c).simulate w p (.buffer "")
      { world := w, out := out.text, error }
  | .build =>
    match (bench c).build w p output with
    | (w, .ok _) => { world := w }
    | (w, .error e) => { world := w, error := some e }
  | .run =>
    let r := (bench c).run w p output (.buffer "") (.buffer "")
    { world := r.world, out := r.out.text, err := r.err.text, error := r.error }
  | .ir => printCode w p ((g.text? "format").getD "table")
  | .verify => verify c g w p

/-- Carry out a verb on the program of a file. -/
def actOnFile (v : Verb) (c : Config) (g : Given) (w : World) (path : String) : Effect :=
  let loaded := if v = .verify then loadLinked c w.files path else loadChecked c w.files path
  match loaded with
  | .error e => { world := w, error := some e }
  | .ok p => act v c g w p

/-! ## The whole -/

/-- The outcome of a command line that cannot be carried out. -/
def refuse (files : Files) (message : String) (hint : String := "") : Outcome :=
  { exit := 2, err := "Error: " ++ message ++ "\n" ++ hint, files }

/-- The commands and their flags. -/
def usage : String :=
  "Usage:\n  " ++ programName ++ " COMMAND [FLAGS] FILE\n\nCommands:\n" ++
    String.join ([Verb.sim, .build, .run, .ir, .verify].map fun v =>
      let flags := v.ownFlags.map fun f => " [--" ++ f.name ++ "]"
      "  " ++ v.name ++ String.join flags ++ " FILE\n") ++
    "\nFlags:\n" ++ String.join (sharedFlags.map fun f => "  --" ++ f.name ++ "\n")

/-- The outcome of an effect: the log, what was written, and the error in words. -/
def finish (l : Log.Logger) (verbose : Bool) (e : Effect) : Outcome :=
  let err := l.write e.world.log.toList ++ e.err
  match e.error with
  | none => { exit := 0, out := e.out, err, files := e.world.files }
  | some error =>
    let words := if verbose then error.detailed else error.short
    { exit := 1, out := e.out, err := err ++ "error: " ++ words ++ "\n", files := e.world.files }

/-- Run a verb with its arguments. -/
def runVerb (w : World) (v : Verb) (args : List String) : Outcome :=
  match readArgs v.flags {} args with
  | .error e => refuse w.files e.message
  | .ok g =>
    if g.isOn "help" then { exit := 0, out := usage, files := w.files }
    else
      match g.operands with
      | [path] =>
        match settings w.files g with
        | .error e => refuse w.files e.message
        | .ok c =>
          match c.logger with
          | .error e => refuse w.files e.message
          | .ok l => finish l (g.isOn "verbose") (actOnFile v c g w path)
      | operands =>
        refuse w.files ("accepts 1 arg(s), received " ++ toString operands.length)

/-- Run the program with its arguments. -/
def run (w : World) (args : List String) : Outcome :=
  match findCommand args with
  | .error message =>
    refuse w.files message ("Run '" ++ programName ++ " --help' for usage.\n")
  | .ok (some (.verb v), rest) => runVerb w v rest
  | .ok (none, rest) =>
    match readArgs (sharedFlags ++ [helpFlag]) {} rest with
    | .error e => refuse w.files e.message
    | .ok _ => { exit := 0, out := usage, files := w.files }
  | .ok (some _, _) => { exit := 0, out := usage, files := w.files }

end StackLang.Cli

import StackLang.Cli.Run

/-!
# Sample programs

Two complete uses of the library: one runs a program on a core with a clock, the other prints the
code and the assembly text of a program.
-/

set_option autoImplicit false

namespace StackLang.Sample

/-- A program that counts down from 10 and prints 100 at the end. -/
def countdownSource : String :=
  "// Counts down from 10 and prints 100 once the counter reaches zero.\n" ++
  "10\n" ++
  "WHILE DUPL 0 > DO\n" ++
  "  DUPL DUMP\n" ++
  "  1 -\n" ++
  "END\n" ++
  "0 =? IF 100 DUMP END\n"

/-- A program that prints one of two numbers. -/
def branchSource : String :=
  "\n" ++
  "1 2 > IF\n" ++
  "  1 DUMP\n" ++
  "ELSE\n" ++
  "  2 DUMP\n" ++
  "END\n"

/-- The program of a sample. -/
def load (file source : String) : Except Error Program :=
  Program.load file Vocabulary.standard (Text.encode source)

/-- The outcome of a sample that failed. -/
def failed (files : Files) (out err : String) (e : Error) : Cli.Outcome :=
  { exit := 1, out, err := err ++ e.message ++ "\n", files }

/-- The last lines of a timed run. -/
def timingText (t : Timing Seconds) : String :=
  "========================\n" ++
  "cycles: " ++ toString t.cycles ++ ", time: " ++
  Decimal.fixed 0 (Seconds.nanoseconds t.seconds) ++ " ns\n"

/-- Run the countdown on a core, then on a machine whose end is shown. -/
def countdown (w : World) : Cli.Outcome :=
  match load "countdown.tn" countdownSource with
  | .error e => failed w.files "" "" e
  | .ok p =>
    let bench : Workbench Seconds :=
      { clock := .ofFrequency Clock.gigahertz, shared := some .fresh }
    let r := bench.simulateTimed w p (.buffer "")
    let logger : Log.Logger := { least := Log.Level.debug, format := .json }
    let err := logger.write r.world.log.toList
    match r.error with
    | some e => failed w.files r.out.text err e
    | none =>
      let out := r.out.text ++ timingText r.timing
      match Machine.ofProgram? p Sink.discard with
      | none => failed w.files out err .unlinked
      | some m =>
        match m.run with
        | (_, .faulted f) => failed w.files out err (.fault f)
        | (m, _) => { exit := 0, out := out ++ m.describe, err, files := w.files }

/-- Print the code and the assembly text of the branch. -/
def branch (w : World) : Cli.Outcome :=
  match load "branch.tn" branchSource with
  | .error e => failed w.files "" "" e
  | .ok p =>
    let out := (Listing.table p).render ++ "\n"
    match Assembly.emit p (Sink.buffer out) with
    | (sink, none) => { exit := 0, out := sink.text, files := w.files }
    | (sink, some e) => failed w.files sink.text "" e.toError

end StackLang.Sample

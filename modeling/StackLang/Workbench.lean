import StackLang.Assembly.Compile
import StackLang.Simulation
import StackLang.Toolchain

/-!
# Workbenches

A workbench runs linked programs: on a machine, on a core with a clock, or as native executables
that it builds first.
-/

set_option autoImplicit false

namespace StackLang

/-- The error of assembly text that was not written completely. -/
def Assembly.EmitError.toError {ε : Type} [ToString ε] : Assembly.EmitError ε → Error
  | .unlinked => .unlinked
  | .bad e => .plain e.message false
  | .output e => .plain (toString e) false

/-- A place to run programs. -/
structure Workbench (τ : Type) where
  name : String := "Driver"
  toolchain : Toolchain := .external {}
  /-- The clock of the cores of timed runs. -/
  clock : Clock τ
  /-- Whether every instruction is logged. -/
  trace : Bool := false
  /-- The simulation that all timed runs share, if they do. -/
  shared : Option (Simulation τ) := none
  /-- The number of timed runs so far. -/
  runs : Nat := 0

/-- The files that a build writes. -/
structure Artifacts where
  assembly : String := ""
  object : String := ""
  binary : String := ""
  deriving DecidableEq, Repr

/-- The files of a build with an output. -/
def Artifacts.of (output : String) : Artifacts := ⟨output ++ ".asm", output ++ ".o", output⟩

/-- The counts and the time of a timed run. -/
structure Timing (τ : Type) where
  cycles : Nat := 0
  steps : Nat := 0
  /-- The time of the last tick, if there was a run. -/
  time : Option τ := none

/-- The time of the last tick in seconds; without a run no time has passed. -/
def Timing.seconds (t : Timing Seconds) : Seconds := t.time.getD 0.0

/-- What a timed run leaves. -/
structure TimedRun (τ : Type) where
  bench : Workbench τ
  world : World
  out : Sink
  timing : Timing τ := {}
  error : Option Error := none

namespace Workbench

variable {τ : Type}

/-! ## Simulation -/

/-- Run a program on a machine. -/
def simulate (b : Workbench τ) (w : World) (p : Program) (out : Sink) :
    World × Sink × Option Error :=
  match Machine.ofProgram? p out with
  | none => (w, out, some .unlinked)
  | some m =>
    let { files, log, calls, scratch } := w
    match m.runLogged b.trace log with
    | (m, .faulted f, log) => ({ files, log, calls, scratch }, m.out, some (.fault f))
    | (m, _, log) =>
      let w : World := { files, log, calls, scratch }
      (w.note Log.Level.debug "Simulate" [("Source", .str p.source), ("Steps", .int m.steps)],
        m.out, none)

/-- The name of the core of the `n`-th timed run. -/
def coreName (b : Workbench τ) (n : Nat) : String :=
  if n = 1 then b.name ++ ".Core" else b.name ++ ".Core[" ++ toString (n - 1) ++ "]"

/-- The error of a program that was not put on a core. -/
def mapError : Simulation.MapError → Error
  | .unlinked => .unlinked
  | .misuse m => .misuse m

/-- The core of the next timed run. -/
def newCore [Timeline τ] (b : Workbench τ) (out : Sink) : Core τ :=
  { name := b.coreName (b.runs + 1), clock := b.clock, out, trace := b.trace
    lastTick := Timeline.before }

/-- Run a program on a core with a clock. -/
def simulateTimed [Timeline τ] (b : Workbench τ) (w : World) (p : Program) (out : Sink) :
    TimedRun τ :=
  let core := b.newCore out
  let b := { b with runs := b.runs + 1 }
  let sim : Simulation τ := { b.shared.getD .fresh with log := w.log }
  let keep (sim : Simulation τ) : Workbench τ × World :=
    ({ b with shared := b.shared.map fun _ => { sim with log := #[] } },
      { w with log := sim.log })
  match sim.addCore core with
  | .error m => { bench := b, world := w, out, error := some (.misuse m) }
  | .ok (sim, i) =>
    match sim.mapProgram i p with
    | (sim, some e) =>
      let (bench, world) := keep sim
      { bench, world, out, error := some (mapError e) }
    | (sim, none) =>
      match sim.run with
      | (sim, some m) =>
        let (bench, world) := keep sim
        { bench, world, out, error := some (.misuse m) }
      | (sim, none) =>
        let (bench, world) := keep sim
        match sim.core? i with
        | none => { bench, world, out }
        | some c =>
          let steps := match c.machine with
            | some m => m.steps
            | none => 0
          let timing : Timing τ := { cycles := c.cycles, steps, time := some sim.now }
          match c.fault with
          | some f => { bench, world, out := c.sink, timing, error := some (.fault f) }
          | none =>
            let world := world.note Log.Level.debug "SimulateTimed"
              [("Source", .str p.source), ("Cycles", .int c.cycles),
                ("Time", Timeline.logged sim.now)]
            { bench, world, out := c.sink, timing }

/-! ## Native executables -/

/-- Create the directory of a path, unless that is the working directory. -/
def makeDirectory (w : World) (output : String) : Except Error World :=
  let dir := Path.dir output
  if dir == "." then .ok w
  else
    match w.files.mkdirAll dir with
    | .ok files => .ok { w with files }
    | .error e => .error (.wrapped ("creating " ++ dir) (.file e))

/-- Write the assembly text of a program to a file.  What was written before an error stays. -/
def writeAssembly (w : World) (path : String) (p : Program) : World × Option Error :=
  let (sink, problem) := Assembly.emit p (Sink.buffer "")
  match w.files.writeFile path sink.text false with
  | .error e => (w, some (.wrapped ("creating " ++ path) (.file e)))
  | .ok files =>
    ({ w with files }, problem.map fun e => .wrapped ("generating " ++ path) e.toError)

/-- Assemble and link the text that has been written. -/
def assembleAndLink (b : Workbench τ) (w : World) (a : Artifacts) :
    World × Except Error Artifacts :=
  match b.toolchain.assemble w a.assembly a.object with
  | (w, some e) => (w, .error (.wrapped ("assembling " ++ a.assembly) e))
  | (w, none) =>
    let w := w.note Log.Level.info "Assembled" [("File", .str a.object)]
    match b.toolchain.link w a.object a.binary with
    | (w, some e) => (w, .error (.wrapped ("linking " ++ a.object) e))
    | (w, none) => (w.note Log.Level.info "Linked" [("File", .str a.binary)], .ok a)

/-- Build a native executable at `output`. -/
def build (b : Workbench τ) (w : World) (p : Program) (output : String) :
    World × Except Error Artifacts :=
  if !p.linked then (w, .error .unlinked)
  else
    match makeDirectory w output with
    | .error e => (w, .error e)
    | .ok w =>
      let a := Artifacts.of output
      match writeAssembly w a.assembly p with
      | (w, some e) => (w, .error e)
      | (w, none) =>
        b.assembleAndLink (w.note Log.Level.info "Generated"
          [("File", .str a.assembly), ("Instructions", .int p.size)]) a

/-- Build a native executable at `output` and run it. -/
def run (b : Workbench τ) (w : World) (p : Program) (output : String) (out err : Sink) : Executed :=
  match b.build w p output with
  | (w, .error e) => { world := w, out, err, error := some e }
  | (w, .ok a) =>
    let r := b.toolchain.execute w (Path.executable a.binary) out err
    { r with error := r.error.map (.wrapped ("running " ++ a.binary)) }

end Workbench

end StackLang

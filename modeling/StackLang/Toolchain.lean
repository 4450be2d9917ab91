import StackLang.Error
import StackLang.Sink
import StackLang.Log.Record
import StackLang.Shell.Exec

/-!
# Toolchains

A toolchain turns assembly text into an executable in two steps, assembling and linking, and runs
it.  The steps are external programs, or they are rehearsed: then they are only recorded, and end
as they were told to.
-/

set_option autoImplicit false

namespace StackLang

/-- A step of a toolchain. -/
inductive Call where
  | assemble (source object : String)
  | link (object binary : String)
  | execute (binary : String)
  deriving DecidableEq, Repr

/-- What steps can change: the files, the log, and the record of rehearsed steps. -/
structure World where
  files : Files := {}
  log : Array Log.Record := #[]
  calls : Array Call := #[]
  /-- A directory for files that are not kept. -/
  scratch : String := "/tmp/verify"

/-- Add a record to the log. -/
def World.note (w : World) (level : Log.Level) (message : String)
    (values : List (String × Log.Value)) : World :=
  { w with log := w.log.push { level, message, values } }

/-- The programs that assemble and link, with the flags they are given first. -/
structure ExternalTools where
  assembler : String := "nasm"
  assemblerFlags : Option (List String) := some ["-felf64"]
  linker : String := "ld"
  linkerFlags : Option (List String) := none
  deriving DecidableEq, Repr

/-- How a rehearsed step ends, and what it writes before that. -/
structure Rehearsal where
  error : Option Error := none
  out : String := ""
  err : String := ""

/-- A way to build and run native executables. -/
inductive Toolchain where
  | external (tools : ExternalTools)
  | rehearsed (assemble link execute : Rehearsal)

/-- What an executable leaves: the world, its output and its error output. -/
structure Executed where
  world : World
  out : Sink
  err : Sink
  error : Option Error

namespace ExternalTools

/-- Run a program with its output going to `out` and its error output to `err`.  The error output
is also kept for the error, if there is one. -/
def run (w : World) (tool : String) (args : Option (List String)) (out err : Sink) : Executed :=
  let w := w.note Log.Level.debug "Exec" [("Tool", .str tool), ("Args", .strs args)]
  let args := args.getD []
  let (finished, result) := Shell.execute w.files tool args
  let w := { w with files := finished.files }
  let (out, outRefusal) := Writer.write out finished.out
  let (err, errRefusal) := Writer.write err finished.err
  let failed (exit : Int) (cause : String) : Option Error :=
    some (.tool { tool, args, exit, stderr := finished.err, cause := some cause })
  let error := match result with
    | .error e => failed (-1) e.message
    | .ok 0 => (outRefusal.or errRefusal).bind fun e => failed (-1) (toString e)
    | .ok n => failed n ("exit status " ++ toString n)
  { world := w, out, err, error }

/-- The arguments of a step that makes one file of another. -/
def stepArgs (flags : Option (List String)) (input output : String) : Option (List String) :=
  some (flags.getD [] ++ [input, "-o", output])

end ExternalTools

namespace Toolchain

/-- Record a rehearsed step. -/
def record (w : World) (c : Call) : World := { w with calls := w.calls.push c }

/-- Make an object file of assembly text. -/
def assemble (t : Toolchain) (w : World) (source object : String) : World × Option Error :=
  match t with
  | external tools =>
    let r := ExternalTools.run w tools.assembler
      (ExternalTools.stepArgs tools.assemblerFlags source object) .discard .discard
    (r.world, r.error)
  | rehearsed step _ _ => (record w (.assemble source object), step.error)

/-- Make an executable of an object file. -/
def link (t : Toolchain) (w : World) (object binary : String) : World × Option Error :=
  match t with
  | external tools =>
    let r := ExternalTools.run w tools.linker
      (ExternalTools.stepArgs tools.linkerFlags object binary) .discard .discard
    (r.world, r.error)
  | rehearsed _ step _ => (record w (.link object binary), step.error)

/-- Run an executable. -/
def execute (t : Toolchain) (w : World) (binary : String) (out err : Sink) : Executed :=
  match t with
  | external _ => ExternalTools.run w binary none out err
  | rehearsed _ _ step =>
    { world := record w (.execute binary), out := (Writer.write out step.out).1,
      err := (Writer.write err step.err).1, error := step.error }

end Toolchain

end StackLang

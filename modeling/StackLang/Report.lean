import StackLang.Interpret
import StackLang.Table
import StackLang.Workbench

/-!
# Verification reports

A report checks a program in up to three stages: the jumps of its code, a run on a machine with a
budget, and a native run whose output is compared with that of the machine.
-/

set_option autoImplicit false

namespace StackLang

/-- The error of a bounded run. -/
def RunError.toError : RunError → Error
  | .unlinked => .unlinked
  | .fault f => .fault f
  | .stepLimit => .stepLimit

/-- What a native run wrote, and how it failed, if it did. -/
structure NativeRun where
  out : String
  error : Option Error

/-- What the stages found.  A stage that was not reached or not asked for is missing. -/
structure Report where
  source : String
  length : Nat
  issues : List Issue
  interpretation : Option Interpretation := none
  native : Option NativeRun := none

namespace Report

/-- The issues of a kind. -/
def issuesOf (r : Report) (k : Finding.Kind) : List Issue :=
  r.issues.filter fun i => i.finding.kind == k

/-- What a program is checked with. -/
structure Options where
  /-- The budget of the machine; 0 is the default one. -/
  maxSteps : Nat := 0
  /-- Where programs run natively, if they do. -/
  bench : Option (Workbench Seconds) := none
  /-- The output of the native build; none is a place that is not kept. -/
  output : String := ""

/-! ## Making a report -/

/-- Run a program natively. -/
def runNative (b : Workbench Seconds) (w : World) (p : Program) (output : String) :
    World × NativeRun :=
  let finish (r : Executed) : World × NativeRun := (r.world, ⟨r.out.text, r.error⟩)
  if output == "" then
    match w.files.mkdirAll w.scratch with
    | .error e => (w, ⟨"", some (.file e)⟩)
    | .ok files =>
      let r := b.run { w with files } p (w.scratch ++ "/prog") (.buffer "") (.buffer "")
      let (w, n) := finish r
      match w.files.resolve w.scratch with
      | .ok place => ({ w with files := w.files.removeAll place }, n)
      | .error _ => (w, n)
  else finish (b.run w p output (.buffer "") (.buffer ""))

/-- Check a program. -/
def make (o : Options) (w : World) (p : Program) : World × Report :=
  let r : Report := { source := p.source, length := p.size, issues := p.lint }
  if !r.issues.isEmpty then (w, r)
  else
    let budget := if o.maxSteps = 0 then defaultMaxSteps else o.maxSteps
    let r := { r with interpretation := some (p.interpret budget) }
    match o.bench with
    | none => (w, r)
    | some b =>
      let (w, n) := runNative b w p o.output
      (w, { r with native := some n })

/-- Whether a program passed: no issues, a complete run, and a native run, if there was one, that
was complete and wrote the same. -/
def ok (r : Report) : Bool :=
  r.issues.isEmpty &&
  match r.interpretation with
  | none => false
  | some i =>
    i.error.isNone &&
    match r.native with
    | none => true
    | some n => n.error.isNone && n.out == i.out

/-! ## Writing a report -/

/-- A line of one character. -/
def rule (c : Char) : String := String.ofList (List.replicate 60 c) ++ "\n"

/-- The heading of a part. -/
def heading (title : String) : String := rule '=' ++ title ++ "\n" ++ rule '='

/-- An issue on a line of its own. -/
def issueLine (i : Issue) : String :=
  match i.at? with
  | none => "  " ++ i.finding.message ++ "\n"
  | some (addr, op) =>
    "  [addr=" ++ toString addr ++ " " ++ op.name ++ "] " ++ i.finding.message ++ "\n"

/-- The issues of a kind, if there are any. -/
def issueLines (k : Finding.Kind) (issues : List Issue) : String :=
  if issues.isEmpty then ""
  else
    "\n" ++ k.name ++ " ISSUES (" ++ toString issues.length ++ "):\n" ++ rule '-' ++
      String.join (issues.map issueLine)

/-- The stage of the jumps. -/
def lintText (r : Report) : String :=
  if r.issues.isEmpty then "No lint issues found\n"
  else
    "Found " ++ toString r.issues.length ++ " lint issues:\n" ++
      issueLines .struct (r.issuesOf .struct) ++ issueLines .range (r.issuesOf .range)

/-- The stage of the machine. -/
def interpretText (r : Report) : String :=
  match r.interpretation with
  | none => "Skipped\n"
  | some i =>
    match i.error with
    | some e =>
      "Error after " ++ toString i.steps ++ " steps: " ++ e.toError.message ++ "\n"
    | none => "Completed in " ++ toString i.steps ++ " steps\n"

/-- The stage of the native run. -/
def nativeText (r : Report) : String :=
  match r.native with
  | none => "Skipped\n"
  | some n =>
    match n.error with
    | some e => "Error: " ++ e.message ++ "\n"
    | none => "Completed\n"

/-- The lines of an output.  A last line needs no line end. -/
def outputLines (s : String) : List String :=
  let cs := s.toList
  let cs := if cs.getLast? = some '\n' then cs.dropLast else cs
  if cs.isEmpty then [] else (cs.splitOn '\n').map String.ofList

/-- Lines of one output beside lines of another, from line `n` on. -/
def compareLines (n : Nat) : List String → List String → List (List Cell)
  | [], [] => []
  | a :: as, [] => comparison n a "" :: compareLines (n + 1) as []
  | [], b :: bs => comparison n "" b :: compareLines (n + 1) [] bs
  | a :: as, b :: bs => comparison n a b :: compareLines (n + 1) as bs
where
  comparison (n : Nat) (a b : String) : List Cell :=
    [.num n, .str a, .str b, .str (if a == b then "" else "DIFF")]

/-- The output of the machine, beside that of the native run if there was one. -/
def outputTable (i : Interpretation) (native : Option NativeRun) : Table :=
  match native with
  | none =>
    { title := "Output", header := ["Line", "Interpreter"]
      rows := (outputLines i.out).mapIdx fun k line => [.num (k + 1), .str line] }
  | some n =>
    { title := "Output", header := ["Line", "Interpreter", "Native", ""]
      rows := compareLines 1 (outputLines i.out) (outputLines n.out) }

/-- The outputs, if there are any. -/
def outputText (r : Report) : String :=
  match r.interpretation with
  | none => ""
  | some i =>
    let t := outputTable i r.native
    if t.rows.isEmpty then "" else "\n" ++ t.render ++ "\n"

/-- The report as text. -/
def text (r : Report) : String :=
  heading "PROGRAM VERIFICATION REPORT" ++
  "\nSource: " ++ r.source ++ " (" ++ toString r.length ++ " instructions)\n" ++
  "\n" ++ heading "STAGE 1: STATIC LINT CHECKS" ++ r.lintText ++
  "\n" ++ heading "STAGE 2: INTERPRETER" ++ r.interpretText ++
  "\n" ++ heading "STAGE 3: NATIVE RUN" ++ r.nativeText ++
  r.outputText ++
  "\n" ++ heading "VERIFICATION SUMMARY" ++
  "Lint Result: " ++ toString r.issues.length ++ " issues detected (" ++
  toString (r.issuesOf .struct).length ++ " STRUCT, " ++
  toString (r.issuesOf .range).length ++ " RANGE)\n" ++
  (if r.ok then "PROGRAM PASSED ALL CHECKS\n" else "PROGRAM FAILED VERIFICATION\n") ++ "\n"

/-- Write the report to a file. -/
def save (r : Report) (files : Files) (path : String) : Except Error Files :=
  (files.writeFile path r.text false).mapError fun e =>
    .under "failed to create report file" (.file e)

end Report

end StackLang

import StackLang.Machine
import StackLang.Clock
import StackLang.Error
import StackLang.Log.Record

/-!
# Cores

A core runs a program one instruction per tick of its clock.  It counts the ticks that executed an
instruction and keeps the fault that stopped it.  Cores have names: elements between dots, each of
which starts with a capital letter and may end in indices between brackets.
-/

set_option autoImplicit false

namespace StackLang

namespace CoreName

/-- Whether no bracket closes before it opens, and all that open close. -/
def isBalanced (depth : Nat) : List Char → Bool
  | [] => depth == 0
  | '[' :: rest => isBalanced (depth + 1) rest
  | ']' :: rest => if depth = 0 then false else isBalanced (depth - 1) rest
  | _ :: rest => isBalanced depth rest

/-- What can be wrong with a name. -/
inductive Problem where
  /-- A rule that the name breaks. -/
  | rule (reason : String)
  /-- An opening bracket right behind another. -/
  | noIndex
  deriving DecidableEq, Repr

/-- What is wrong with an index: the text between an opening bracket and the next, without its
last character. -/
def indexProblem? (s : List Char) : Option Problem :=
  match s.reverse with
  | [] => some .noIndex
  | c :: digits =>
    if c.val < 0x80 && (Literal.read? digits.reverse).isSome then none
    else some (.rule "Name index must be integer")

/-- What is wrong with the brackets of an element. -/
def bracketProblem? (element : List Char) : Option Problem :=
  if !isBalanced 0 element then some (.rule "Name bracket must match")
  else ((element.splitOn '[').drop 1).findSome? indexProblem?

/-- What is wrong with an element, its indices apart. -/
def elementProblem? (element : List Char) : Option Problem :=
  let stem := (element.splitOn '[').headD []
  match stem with
  | [] => some (.rule "Name element must not be empty")
  | first :: _ =>
    match ['_', '"', '\'', '-'].find? stem.contains with
    | some c => some (.rule ("Name element must not contain " ++ String.singleton c))
    | none =>
      if 'A' ≤ first && first ≤ 'Z' then none
      else some (.rule "Name element must start with a capital letter")

/-- What is wrong with a name. -/
def problem? (name : String) : Option Problem :=
  let elements := name.toList.splitOn '.'
  (elements.findSome? bracketProblem?).or (elements.findSome? elementProblem?)

/-- The misuse of giving a core such a name. -/
def misuse? (name : String) : Option Misuse :=
  (problem? name).map fun
    | .rule reason => .badName name reason
    | .noIndex => .noIndex

end CoreName

/-- A core of a simulation. -/
structure Core (τ : Type) where
  name : String
  clock : Clock τ
  /-- Where programs write; once one is mapped, its machine holds the sink. -/
  out : Sink := .discard
  /-- Whether every instruction is logged. -/
  trace : Bool := false
  machine : Option Machine := none
  /-- The ticks that executed an instruction. -/
  cycles : Nat := 0
  fault : Option Fault := none
  /-- The latest tick that has been scheduled. -/
  lastTick : τ

/-- The record of an instruction about to be executed. -/
def Machine.stepRecord (m : Machine) (i : Instr) : Log.Record :=
  { level := Log.Level.trace, message := "Step",
    values := [("IP", .int m.ip), ("Op", .op i.op), ("Imm", .int i.imm.toInt),
      ("Depth", .int m.stack.length)] }

/-- Execute one instruction, with a record of it if `trace` is set. -/
def Machine.stepLogged (m : Machine) (trace : Bool) (log : Array Log.Record) :
    Machine × Option Fault × Array Log.Record :=
  let log := match trace, m.next? with
    | true, some i => log.push (m.stepRecord i)
    | _, _ => log
  let (m, f) := m.step
  (m, f, log)

/-- Execute up to `bound` instructions, with a record of each if `trace` is set. -/
def Machine.runForLogged (trace : Bool) : (bound : Nat) → Array Log.Record → Machine →
    Machine × Machine.Status × Array Log.Record
  | 0, log, m => (m, if m.halted then .halted else .running, log)
  | n + 1, log, m =>
    if m.halted then (m, .halted, log)
    else
      match m.stepLogged trace log with
      | (m', none, log) => runForLogged trace n log m'
      | (m', some f, log) => (m', .faulted f, log)

/-- One round of a run with records: the machine and the records to go on with, or what the run
ends with. -/
def Machine.roundLogged (trace : Bool) : Machine × Array Log.Record →
    (Machine × Array Log.Record) ⊕ (Machine × Machine.Status × Array Log.Record)
  | (m, log) =>
    if m.halted then .inr (m, .halted, log)
    else
      match m.stepLogged trace log with
      | (m', none, log) => .inl (m', log)
      | (m', some f, log) => .inr (m', .faulted f, log)

/-- Run a machine to its end or its first fault, with a record of each instruction if `trace` is
set. -/
def Machine.runLogged (trace : Bool) (log : Array Log.Record) (m : Machine) :
    Machine × Machine.Status × Array Log.Record :=
  have : Nonempty Machine := ⟨m⟩
  Id.run (repeatM (roundLogged trace) (m, log))

namespace Core

variable {τ : Type}

/-- The sink that programs write to. -/
def sink (c : Core τ) : Sink :=
  match c.machine with
  | some m => m.out
  | none => c.out

/-- The same core with another sink. -/
def withSink (c : Core τ) (out : Sink) : Core τ :=
  match c.machine with
  | some m => { c with machine := some { m with out } }
  | none => { c with out }

/-- Whether the mapped program has ended. -/
def halted (c : Core τ) : Bool :=
  match c.machine with
  | some m => m.halted
  | none => false

/-- Put a linked program on a core, to be run from its start. -/
def map? (c : Core τ) (p : Program) : Option (Core τ) :=
  (Machine.ofProgram? p c.sink).map fun m =>
    { c with machine := some m, cycles := 0, fault := none }

/-- The record of a program put on a core. -/
def mapRecord (c : Core τ) (p : Program) : Log.Record :=
  { level := Log.Level.trace, message := "MapProgram",
    values := [("Core", .str c.name), ("Source", .str p.source), ("Length", .int p.size)] }

/-- The record of a fault. -/
def faultRecord [Timeline τ] (c : Core τ) (now : τ) (ip : Nat) (f : Fault) : Log.Record :=
  { level := Log.Level.trace, message := "Fault",
    values := [("Core", .str c.name), ("Time", Timeline.logged now), ("IP", .int ip),
      ("Error", .str f.message)] }

/-- The record of the end of a program. -/
def haltRecord [Timeline τ] (c : Core τ) (now : τ) : Log.Record :=
  { level := Log.Level.trace, message := "Halt",
    values := [("Core", .str c.name), ("Time", Timeline.logged now),
      ("Cycles", .int c.cycles)] }

/-- One tick: execute an instruction unless there is nothing to execute.  The flag says whether
there will be more to do. -/
def tick [Timeline τ] (c : Core τ) (now : τ) (log : Array Log.Record) :
    Core τ × Bool × Array Log.Record :=
  match c.machine, c.fault with
  | some m, none =>
    if m.halted then (c, false, log)
    else
      let ip := m.ip
      let c := { c with machine := none }
      match m.stepLogged c.trace log with
      | (m, some f, log) =>
        let c := { c with machine := some m, fault := some f }
        (c, false, log.push (c.faultRecord now ip f))
      | (m, none, log) =>
        let halted := m.halted
        let c := { c with machine := some m, cycles := c.cycles + 1 }
        if halted then (c, false, log.push (c.haltRecord now)) else (c, true, log)
  | _, _ => (c, false, log)

end Core

end StackLang

import StackLang.Program
import StackLang.Sink

/-!
# The stack machine

A machine holds linked code, the address of the next instruction, an operand stack, a static
memory and a writer for the lines that `DUMP` writes.  `Machine.step` executes one instruction; a
machine whose next address is at or past the end of the code has halted and does not move.

An instruction that cannot be executed is a fault.  A faulting instruction does not move the
machine on; it may have consumed operands, and where a `DUMP` faults it may be in part that the
writer has taken the line.
-/

set_option autoImplicit false

namespace StackLang

/-- Why an instruction cannot be executed, with a writer whose errors are in `ε`. -/
inductive FaultCause (ε : Type := Sink.Refusal) where
  /-- An operand is missing. -/
  | stackUnderflow
  /-- The target of a jump is no address of the program. -/
  | badJump
  /-- The code names no operation. -/
  | unknownOp (op : Op)
  /-- The writer did not take the output, and said why. -/
  | output (e : ε)
  deriving DecidableEq, Repr

/-- The cause in words. -/
def FaultCause.message {ε : Type} [ToString ε] : FaultCause ε → String
  | stackUnderflow => "stack underflow"
  | badJump => "jump target out of range"
  | unknownOp op => "unknown operation " ++ op.name
  | output e => toString e

/-- A faulting instruction. -/
structure Fault (ε : Type := Sink.Refusal) where
  addr : Nat
  op : Op
  cause : FaultCause ε
  deriving DecidableEq, Repr

/-- The address, the operation and the cause of a fault. -/
def Fault.message {ε : Type} [ToString ε] (f : Fault ε) : String :=
  "runtime fault at address " ++ toString f.addr ++ " (" ++ f.op.name ++ "): " ++ f.cause.message

/-- A region of bytes. -/
structure Memory where
  size : Nat
  byte : Nat → UInt8

namespace Memory

/-- A region of zeros. -/
def zeros (size : Nat) : Memory := ⟨size, fun _ => 0⟩

/-- The number of bytes that are not 0. -/
def nonzero (m : Memory) : Nat :=
  (List.range m.size).countP fun i => m.byte i != 0

end Memory

/-- What `MEMORY` pushes: the offset of the first byte of the static memory. -/
def memoryBase : Int64 := 0

/-- A machine at rest between two instructions, with a writer of the kind `σ`. -/
structure Machine (σ : Type := Sink) where
  code : Array Instr
  ip : Nat := 0
  /-- The operands, topmost first. -/
  stack : List Int64 := []
  memory : Memory := Memory.zeros memoryCapacity
  out : σ
  /-- The number of instructions executed. -/
  steps : Nat := 0

namespace Machine

variable {σ ε : Type}

/-- A machine about to execute the first instruction of a program, if that is linked. -/
def ofProgram? (p : Program) (out : σ) : Option (Machine σ) :=
  if p.linked then some { code := p.code, out := out } else none

/-- Whether the program has ended. -/
def halted (m : Machine σ) : Bool := m.code.size ≤ m.ip

/-- The instruction to execute next. -/
def next? (m : Machine σ) : Option Instr := m.code[m.ip]?

/-- Go on with the next address. -/
def advance (m : Machine σ) : Machine σ := { m with ip := m.ip + 1 }

/-- Push a value and go on. -/
def pushing [Writer σ ε] (m : Machine σ) (v : Int64) : Machine σ × Option (FaultCause ε) :=
  ({ m with stack := v :: m.stack, ip := m.ip + 1 }, none)

/-- Replace the two topmost values by a function of the lower and the topmost one. -/
def binary [Writer σ ε] (m : Machine σ) (f : Int64 → Int64 → Int64) :
    Machine σ × Option (FaultCause ε) :=
  match m.stack with
  | a :: b :: rest => ({ m with stack := f b a :: rest, ip := m.ip + 1 }, none)
  | _ => ({ m with stack := [] }, some .stackUnderflow)

/-- Go to an address from 0 to the length of the code. -/
def jump [Writer σ ε] (m : Machine σ) (target : Int64) : Machine σ × Option (FaultCause ε) :=
  if 0 ≤ target.toInt ∧ target.toInt ≤ m.code.size then
    ({ m with ip := target.toInt.toNat }, none)
  else (m, some .badJump)

/-- Pop a condition; go to `target` if it is 0, else go on. -/
def jumpUnless [Writer σ ε] (m : Machine σ) (target : Int64) : Machine σ × Option (FaultCause ε) :=
  match m.stack with
  | [] => (m, some .stackUnderflow)
  | a :: rest =>
    let m := { m with stack := rest }
    if a = 0 then m.jump target else (m.advance, none)

/-- Push a copy of the topmost value. -/
def duplicate [Writer σ ε] (m : Machine σ) : Machine σ × Option (FaultCause ε) :=
  match m.stack with
  | [] => (m, some .stackUnderflow)
  | a :: rest => ({ m with stack := a :: a :: rest, ip := m.ip + 1 }, none)

/-- Pop the topmost value and write it as a line. -/
def dump [Writer σ ε] (m : Machine σ) : Machine σ × Option (FaultCause ε) :=
  match m with
  | { code, ip, stack, memory, out, steps } =>
    match stack with
    | [] => ({ code, ip, stack, memory, out, steps }, some .stackUnderflow)
    | a :: rest =>
      match Writer.write out (toString a ++ "\n") with
      | (out, none) => ({ code, ip := ip + 1, stack := rest, memory, out, steps }, none)
      | (out, some e) => ({ code, ip, stack := rest, memory, out, steps }, some (.output e))

/-- A truth value as an operand. -/
def truth (b : Bool) : Int64 := if b then 1 else 0

/-- Execute one instruction at the current address. -/
def exec [Writer σ ε] (m : Machine σ) (i : Instr) : Machine σ × Option (FaultCause ε) :=
  match i.op with
  | .push => m.pushing i.imm
  | .plus => m.binary fun b a => b + a
  | .minus => m.binary fun b a => b - a
  | .equal => m.binary fun b a => truth (b == a)
  | .greater => m.binary fun b a => truth (decide (a < b))
  | .pushTrue => m.pushing 1
  | .pushFalse => m.pushing 0
  | .dupl => m.duplicate
  | .mem => m.pushing memoryBase
  | .dump => m.dump
  | .branch | .body => m.jumpUnless i.imm
  | .otherwise | .close => m.jump i.imm
  | .loop => (m.advance, none)
  | .undefined k => (m, some (.unknownOp (.undefined k)))

/-- Execute the next instruction.  A halted machine stays as it is. -/
def step [Writer σ ε] (m : Machine σ) : Machine σ × Option (Fault ε) :=
  match m.next? with
  | none => (m, none)
  | some i =>
    let addr := m.ip
    match m.exec i with
    | (m', none) => ({ m' with steps := m'.steps + 1 }, none)
    | (m', some cause) => (m', some ⟨addr, i.op, cause⟩)

/-- How a run ends. -/
inductive Status (ε : Type := Sink.Refusal) where
  /-- At the end of the program. -/
  | halted
  /-- At a faulting instruction. -/
  | faulted (f : Fault ε)
  /-- Before the end, with the bound used up. -/
  | running
  deriving DecidableEq, Inhabited, Repr

/-- Execute up to `bound` instructions. -/
def runFor [Writer σ ε] : (bound : Nat) → Machine σ → Machine σ × Status ε
  | 0, m => (m, if m.halted then .halted else .running)
  | n + 1, m =>
    if m.halted then (m, .halted)
    else
      match m.step with
      | (m', none) => runFor n m'
      | (m', some f) => (m', .faulted f)

/-- More instructions than a run that ends will execute in practice. -/
def patience : Nat := 0x4000000000000000

/-- One round of a run: the machine to go on with, or what the run ends with. -/
def round [Writer σ ε] (m : Machine σ) : Machine σ ⊕ Machine σ × Status ε :=
  if m.halted then .inr (m, .halted)
  else
    match m.step with
    | (m', none) => .inl m'
    | (m', some f) => .inr (m', .faulted f)

/-- Run a machine to its end or its first fault. -/
def run [Writer σ ε] (m : Machine σ) : Machine σ × Status ε :=
  have : Nonempty (Machine σ) := ⟨m⟩
  Id.run (repeatM round m)

end Machine

end StackLang

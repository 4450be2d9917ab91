import StackLang.Assembly.Instruction

/-!
# Registers

What the instructions do that touch neither memory nor the stack nor the flow of control.  After an
instruction that says nothing useful about them the conditions are unknown.  An immediate operand
has 32 bits, of which the highest is the sign, except where it is moved into a whole register.

A `Processor` passes the items of a text one by one.
-/

set_option autoImplicit false

namespace StackLang.Assembly

/-- The values of the registers. -/
abbrev Registers := Reg → UInt64

/-- The registers with a new value in one of them. -/
def Registers.set (r : Registers) (dst : Reg) (v : UInt64) : Registers :=
  fun s => if s = dst then v else r s

/-- The value of an immediate operand: its low 32 bits, with the sign extended to 64. -/
def operand (imm : Int64) : UInt64 := imm.toInt32.toInt64.toUInt64

/-- What a comparison or a test has found. -/
structure Conditions where
  /-- The result is 0, or the operands are equal. -/
  zero : Bool
  /-- The result is negative. -/
  sign : Bool
  /-- The first operand is above the second, as unsigned numbers. -/
  above : Bool
  /-- The first operand is greater than the second, as signed numbers. -/
  greater : Bool
  deriving DecidableEq, Repr

namespace Conditions

/-- What the comparison of two operands finds. -/
def ofCompare (a b : UInt64) : Conditions :=
  { zero := a == b
    sign := decide ((a - b).toInt64 < 0)
    above := decide (b < a)
    greater := decide (b.toInt64 < a.toInt64) }

/-- What the test of the common bits of two operands finds. -/
def ofTest (a b : UInt64) : Conditions := ofCompare (a &&& b) 0

end Conditions

/-- The address that a place stands for. -/
def Place.address (p : Place) (r : Registers) : UInt64 :=
  let index := match p.index with
    | none => 0
    | some (s, scale) => r s * UInt64.ofNat scale
  r p.base + UInt64.ofInt p.disp + index

/-- Registers and conditions. -/
structure Datapath where
  regs : Registers
  conditions : Option Conditions := none

/-- Do what an instruction does to registers and conditions alone. -/
def Datapath.compute (c : Datapath) (i : Inst) : Option Datapath :=
  let r := c.regs
  let keep (regs : Registers) : Option Datapath := some { c with regs }
  let forget (regs : Registers) : Option Datapath := some { regs }
  match i with
  | .movImm dst imm => keep (r.set dst imm.toUInt64)
  | .mov dst src => keep (r.set dst (r src))
  | .movLowImm imm => keep (r.set .rdi imm.toUInt64.toUInt32.toUInt64)
  | .lea dst p => keep (r.set dst (p.address r))
  | .add dst src => forget (r.set dst (r dst + r src))
  | .addImm dst imm => forget (r.set dst (r dst + operand imm))
  | .addLowImm imm =>
    forget (r.set .rax ((r .rax).toUInt32 + imm.toUInt64.toUInt32).toUInt64)
  | .sub dst src => forget (r.set dst (r dst - r src))
  | .subImm dst imm => forget (r.set dst (r dst - operand imm))
  | .neg dst => forget (r.set dst (0 - r dst))
  | .mul src =>
    let product := (r .rax).toNat * (r src).toNat
    forget ((r.set .rax (UInt64.ofNat product)).set .rdx (UInt64.ofNat (product / UInt64.size)))
  | .shrImm dst n => forget (r.set dst (UInt64.ofNat ((r dst).toNat / Nat.pow 2 n)))
  | .cmp a b => some { regs := r, conditions := some (.ofCompare (r a) (r b)) }
  | .cmpImm a imm => some { regs := r, conditions := some (.ofCompare (r a) (operand imm)) }
  | .test a b => some { regs := r, conditions := some (.ofTest (r a) (r b)) }
  | .moveEqual dst src =>
    c.conditions.map fun k => if k.zero then { c with regs := r.set dst (r src) } else c
  | .moveGreater dst src =>
    c.conditions.map fun k => if k.greater then { c with regs := r.set dst (r src) } else c
  | _ => none

/-- The place of a label among items. -/
def labelAt? (items : List Item) (l : Label) : Option Nat := items.idxOf? (.label l)

/-- What passes the items of a text: its place among them, whether it has stopped, how it goes on
with the next item and how it executes an instruction, if it can. -/
structure Processor (α : Type) where
  pc : α → Nat
  stopped : α → Bool
  next : α → α
  exec : α → Inst → Option α

/-- Pass one item: execute an instruction, and pass over anything else. -/
def Processor.step {α : Type} (c : Processor α) (code : List Item) (m : α) : Option α :=
  if c.stopped m then none
  else
    match code[c.pc m]? with
    | none => none
    | some (.inst i) => c.exec m i
    | some _ => some (c.next m)

end StackLang.Assembly

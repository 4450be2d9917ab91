import StackLang.Op

/-!
# Instructions and programs

A program is a flat sequence of instructions.  The index of an instruction is its address, and the
length of the program is the address at which it has ended.  In a linked program every jump holds
the address it goes to.
-/

set_option autoImplicit false

namespace StackLang

/-- An operation with its immediate: the literal of a push, the target of a jump. -/
structure Instr where
  op : Op
  imm : Int64 := 0
  deriving DecidableEq, Repr, Inhabited

namespace Instr

/-- The text of an instruction, with the immediate where the operation has one. -/
def text (i : Instr) : String :=
  if i.op = .push || i.op.isJump then i.op.name ++ " " ++ toString i.imm else i.op.name

/-- `code` with the immediate at `addr` replaced. -/
def setImmAt (code : Array Instr) (addr : Nat) (imm : Int64) : Array Instr :=
  code.modify addr fun i => { i with imm := imm }

end Instr

/-- A sequence of instructions, and the name of the source they come from. -/
structure Program where
  source : String := ""
  code : Array Instr := #[]
  /-- Whether every jump holds the address it goes to. -/
  linked : Bool := false
  deriving DecidableEq, Repr, Inhabited

namespace Program

/-- The number of instructions, which is also the address where the program has ended. -/
def size (p : Program) : Nat := p.code.size

/-- `p` with the immediate at `addr` replaced. -/
def setImm (p : Program) (addr : Nat) (imm : Int64) : Program :=
  { p with code := Instr.setImmAt p.code addr imm }

end Program

end StackLang

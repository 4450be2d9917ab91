/-!
# x86-64 instructions

The part of the x86-64 instruction set that compiled programs use, as data, and its text in the
syntax of an Intel-style assembler.  A compiled program is a list of items: instructions, labels,
directives, comments and blank lines.
-/

set_option autoImplicit false

namespace StackLang.Assembly

/-- The 64-bit registers in use. -/
inductive Reg where
  | rax | rbx | rcx | rdx | rsi | rdi | rsp | r8 | r9 | r10
  deriving DecidableEq, Repr

/-- The name of a register. -/
def Reg.name : Reg → String
  | rax => "rax"
  | rbx => "rbx"
  | rcx => "rcx"
  | rdx => "rdx"
  | rsi => "rsi"
  | rdi => "rdi"
  | rsp => "rsp"
  | r8 => "r8"
  | r9 => "r9"
  | r10 => "r10"

/-- The names that code and data are reached by. -/
inductive Label where
  /-- The code of the instruction at an address of the program. -/
  | addr (n : Nat)
  /-- The routine that writes a number as a line. -/
  | dump
  /-- Inside that routine, the loop over the digits. -/
  | digits
  /-- Inside that routine, the system call. -/
  | write
  /-- Where the process starts. -/
  | start
  /-- The static memory. -/
  | memory
  deriving DecidableEq, Repr

/-- What precedes the address in the label of an instruction. -/
def addrLabelStem : String := "addr_"

/-- The label of an address, which may lie outside every program. -/
def addrLabel (addr : Int) : String := addrLabelStem ++ toString addr

/-- The text of a label. -/
def Label.text : Label → String
  | addr n => addrLabel n
  | dump => "dump"
  | digits => ".L2"
  | write => ".L3"
  | start => "_start"
  | memory => "mem"

/-- An address in memory: `base + disp + index * scale`. -/
structure Place where
  base : Reg
  disp : Int := 0
  index : Option (Reg × Nat) := none
  deriving DecidableEq, Repr

/-- The text of a place, between brackets. -/
def Place.text (p : Place) : String :=
  let disp :=
    if p.disp = 0 then "" else if p.disp < 0 then toString p.disp else "+" ++ toString p.disp
  let index :=
    match p.index with
    | none => ""
    | some (r, 1) => "+" ++ r.name
    | some (r, scale) => "+" ++ r.name ++ "*" ++ toString scale
  "[" ++ p.base.name ++ disp ++ index ++ "]"

/-- Instructions.  The name ends in `Imm` where the source is an immediate. -/
inductive Inst where
  /-- Push a sign-extended 32-bit immediate. -/
  | pushImm (imm : Int64)
  | push (src : Reg)
  /-- Push the address of a label. -/
  | pushLabel (l : Label)
  | pop (dst : Reg)
  | movImm (dst : Reg) (imm : Int64)
  | mov (dst src : Reg)
  /-- Set the lower half of a register, which clears the upper half. -/
  | movLowImm (imm : Int64)
  /-- Store a byte. -/
  | storeImm (dst : Place) (imm : Nat)
  /-- Store the lowest byte of `rax`. -/
  | storeByte (dst : Place)
  | lea (dst : Reg) (src : Place)
  | add (dst src : Reg)
  | addImm (dst : Reg) (imm : Int64)
  /-- Add to the lower half of `rax`, which clears the upper half. -/
  | addLowImm (imm : Int64)
  | sub (dst src : Reg)
  | subImm (dst : Reg) (imm : Int64)
  | neg (dst : Reg)
  /-- Multiply `rax`, unsigned, into `rdx` and `rax`. -/
  | mul (src : Reg)
  | shrImm (dst : Reg) (imm : Nat)
  | cmp (a b : Reg)
  | cmpImm (a : Reg) (imm : Int64)
  | test (a b : Reg)
  /-- Move if the last comparison found its operands equal. -/
  | moveEqual (dst src : Reg)
  /-- Move if the last comparison found its first operand greater, as signed numbers. -/
  | moveGreater (dst src : Reg)
  | jmp (l : Label)
  /-- Jump if the last result was 0. -/
  | jumpZero (l : Label)
  /-- Jump if the last result was not negative. -/
  | jumpNotSign (l : Label)
  /-- Jump if the last comparison found its first operand above, as unsigned numbers. -/
  | jumpAbove (l : Label)
  | call (l : Label)
  | ret
  | syscall
  deriving DecidableEq, Repr

namespace Inst

/-- The mnemonic of an instruction. -/
def mnemonic : Inst → String
  | pushImm _ | push _ | pushLabel _ => "push"
  | pop _ => "pop"
  | movImm _ _ | mov _ _ | movLowImm _ | storeImm _ _ | storeByte _ => "mov"
  | lea _ _ => "lea"
  | add _ _ | addImm _ _ | addLowImm _ => "add"
  | sub _ _ | subImm _ _ => "sub"
  | neg _ => "neg"
  | mul _ => "mul"
  | shrImm _ _ => "shr"
  | cmp _ _ | cmpImm _ _ => "cmp"
  | test _ _ => "test"
  | moveEqual _ _ => "cmove"
  | moveGreater _ _ => "cmovg"
  | jmp _ => "jmp"
  | jumpZero _ => "jz"
  | jumpNotSign _ => "jns"
  | jumpAbove _ => "ja"
  | call _ => "call"
  | ret => "ret"
  | syscall => "syscall"

/-- The operands of an instruction, destination first. -/
def operands : Inst → List String
  | pushImm imm => [toString imm]
  | push r | pop r | neg r | mul r => [r.name]
  | pushLabel l | jmp l | jumpZero l | jumpNotSign l | jumpAbove l | call l => [l.text]
  | movImm dst imm | addImm dst imm | subImm dst imm | cmpImm dst imm => [dst.name, toString imm]
  | shrImm dst imm => [dst.name, toString imm]
  | mov dst src | add dst src | sub dst src | cmp dst src | test dst src | moveEqual dst src
  | moveGreater dst src => [dst.name, src.name]
  | movLowImm imm => ["edi", toString imm]
  | storeImm dst imm => ["BYTE " ++ dst.text, toString imm]
  | storeByte dst => ["BYTE " ++ dst.text, "al"]
  | lea dst src => [dst.name, src.text]
  | addLowImm imm => ["eax", toString imm]
  | ret | syscall => []

end Inst

/-- A line of an assembly text. -/
inductive Item where
  | label (l : Label)
  | inst (i : Inst)
  /-- A comment that announces the code of an operation. -/
  | heading (title : String)
  | directive (text : String)
  | blank
  deriving DecidableEq, Repr

namespace Item

/-- Pad `s` with blanks to `n` columns. -/
def padded (s : String) (n : Nat) : String :=
  s ++ String.ofList (List.replicate (n - s.length) ' ')

/-- The text of an item without its line end.  Operands start in column `tab` after the mnemonic,
and at least one blank after it. -/
def text (tab : Nat) : Item → String
  | label l => l.text ++ ":"
  | inst i =>
    match i.operands with
    | [] => "    " ++ i.mnemonic
    | operands =>
      "    " ++ padded (i.mnemonic ++ " ") tab ++ String.intercalate ", " operands
  | heading title => "    ;; ----- " ++ title ++ " ----- ;;"
  | directive text => text
  | blank => ""

end Item

/-- The text of items, a line each. -/
def render (tab : Nat) (items : List Item) : String :=
  items.foldl (fun text item => text ++ item.text tab ++ "\n") ""

end StackLang.Assembly

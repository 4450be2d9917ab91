import StackLang.Program
import StackLang.Buffer
import StackLang.Assembly.Instruction

/-!
# Compiled programs

The assembly text of a linked program.  Every address of the program becomes a label, with one more
label for its end, so that each jump has a label to go to.  The operand stack is the stack of the
machine.  A routine in front of the code writes a signed number and a line feed, making the digits
from the last to the first in a buffer on the stack.

An instruction that cannot be compiled, a jump out of the program or an undefined operation, ends
the compilation.
-/

set_option autoImplicit false

namespace StackLang.Assembly

/-- The lines that every text begins with. -/
def header : List Item := [.directive "bits 64", .directive "segment .text"]

/-- The routine that writes `rdi` as a signed decimal number and a line feed. -/
def dumpRoutine : List Item := [
  .blank,
  .label .dump,
  .inst (.movImm .r9 (-3689348814741910323)),
  .inst (.subImm .rsp 40),
  .inst (.storeImm { base := .rsp, disp := 31 } 10),
  .inst (.lea .rcx { base := .rsp, disp := 30 }),
  .inst (.mov .r10 .rdi),
  .inst (.test .rdi .rdi),
  .inst (.jumpNotSign .digits),
  .inst (.neg .rdi),
  .label .digits,
  .inst (.mov .rax .rdi),
  .inst (.lea .r8 { base := .rsp, disp := 32 }),
  .inst (.mul .r9),
  .inst (.mov .rax .rdi),
  .inst (.sub .r8 .rcx),
  .inst (.shrImm .rdx 3),
  .inst (.lea .rsi { base := .rdx, index := some (.rdx, 4) }),
  .inst (.add .rsi .rsi),
  .inst (.sub .rax .rsi),
  .inst (.addLowImm 48),
  .inst (.storeByte { base := .rcx }),
  .inst (.mov .rax .rdi),
  .inst (.mov .rdi .rdx),
  .inst (.mov .rdx .rcx),
  .inst (.subImm .rcx 1),
  .inst (.cmpImm .rax 9),
  .inst (.jumpAbove .digits),
  .inst (.lea .rax { base := .rsp, disp := 32 }),
  .inst (.movLowImm 1),
  .inst (.sub .rdx .rax),
  .inst (.lea .rsi { base := .rsp, disp := 32, index := some (.rdx, 1) }),
  .inst (.mov .rdx .r8),
  .inst (.test .r10 .r10),
  .inst (.jumpNotSign .write),
  .inst (.storeImm { base := .rsi, disp := -1 } 45),
  .inst (.subImm .rsi 1),
  .inst (.addImm .rdx 1),
  .label .write,
  .inst (.movImm .rax 1),
  .inst .syscall,
  .inst (.addImm .rsp 40),
  .inst .ret]

/-- The lines between the routine and the code of the program. -/
def entry : List Item := [.blank, .directive "global _start", .blank, .label .start]

/-- The end of the program at address `n`: leave the process, and reserve the memory. -/
def exitSequence (n : Nat) : List Item := [
  .label (.addr n),
  .inst (.movImm .rax 60),
  .inst (.movImm .rdi 0),
  .inst .syscall,
  .directive "segment .bss",
  .directive (Label.memory.text ++ ": resb " ++ toString memoryCapacity)]

/-- An instruction that cannot be compiled. -/
inductive BadInstruction where
  /-- A jump to no address of a program of length `size`. -/
  | jumpOutside (addr : Nat) (op : Op) (target : Int64) (size : Nat)
  /-- An undefined operation. -/
  | unknownOp (addr : Nat) (op : Op)
  deriving DecidableEq, Repr

/-- Which instruction cannot be compiled, and why. -/
def BadInstruction.message : BadInstruction → String
  | jumpOutside addr op target size =>
    "address " ++ toString addr ++ " (" ++ op.name ++ "): jump target " ++ toString target ++
      " outside [0, " ++ toString size ++ "]"
  | unknownOp addr op => "address " ++ toString addr ++ ": unknown operation " ++ op.name

/-- The label that a jump at `addr` in a program of length `n` goes to. -/
def jumpLabel (addr n : Nat) (i : Instr) : Except BadInstruction Label :=
  if 0 ≤ i.imm.toInt ∧ i.imm.toInt ≤ n then .ok (.addr i.imm.toInt.toNat)
  else .error (.jumpOutside addr i.op i.imm n)

/-- Whether an immediate can be pushed directly, as a sign-extended 32-bit number. -/
def isShort (imm : Int64) : Bool := -0x80000000 ≤ imm.toInt && imm.toInt < 0x80000000

/-- A comparison of the entries popped into `rax` and `rbx`, in the order given, that pushes 1
where `move` moves and 0 where it does not. -/
def comparison (first second : Reg) (move : Inst) : List Inst :=
  [.movImm .rcx 0, .movImm .rdx 1, .pop first, .pop second, .cmp .rax .rbx, move, .push .rcx]

/-- The code of the instruction at `addr` of a program of length `n`. -/
def code (addr n : Nat) (i : Instr) : Except BadInstruction (List Inst) :=
  match i.op with
  | .push =>
    .ok (if isShort i.imm then [.pushImm i.imm] else [.movImm .rax i.imm, .push .rax])
  | .plus => .ok [.pop .rax, .pop .rbx, .add .rax .rbx, .push .rax]
  | .minus => .ok [.pop .rax, .pop .rbx, .sub .rbx .rax, .push .rbx]
  | .equal => .ok (comparison .rax .rbx (.moveEqual .rcx .rdx))
  | .greater => .ok (comparison .rbx .rax (.moveGreater .rcx .rdx))
  | .pushTrue => .ok [.pushImm 1]
  | .pushFalse => .ok [.pushImm 0]
  | .branch | .body => do
    let target ← jumpLabel addr n i
    return [.pop .rax, .test .rax .rax, .jumpZero target]
  | .otherwise => do
    let target ← jumpLabel addr n i
    return [.jmp target]
  | .close => do
    let target ← jumpLabel addr n i
    return if i.imm = Int64.ofNat (addr + 1) then [] else [.jmp target]
  | .loop => .ok []
  | .dupl => .ok [.pop .rax, .push .rax, .push .rax]
  | .mem => .ok [.pushLabel .memory]
  | .dump => .ok [.pop .rdi, .call .dump]
  | .undefined k => .error (.unknownOp addr (.undefined k))

/-- The heading above the code of an operation. -/
def heading (op : Op) : String := if op = .greater then "GREATER THAN" else op.name

/-- Items, and the instruction at which the compilation stopped, if it did. -/
structure Compiled where
  items : List Item
  bad : Option BadInstruction

/-- The items of the instructions from `addr` on of a program of length `n`.  The label of an
instruction that cannot be compiled is still among them. -/
def compileFrom (addr n : Nat) : List Instr → Compiled
  | [] => ⟨exitSequence n, none⟩
  | i :: rest =>
    match code addr n i with
    | .error e => ⟨[.label (.addr addr)], some e⟩
    | .ok insts =>
      let t := compileFrom (addr + 1) n rest
      ⟨.label (.addr addr) :: .heading (heading i.op) :: insts.map .inst ++ t.items, t.bad⟩

/-- The items of the code of a program. -/
def compile (p : Program) : Compiled :=
  compileFrom 0 p.size p.code.toList

/-- The text of the routine has its operands in a column of their own. -/
def routineTab : Nat := 8

/-- The text in front of the code of a program. -/
def preamble : String := render routineTab (header ++ dumpRoutine ++ entry)

/-- The text of a program up to its end or to its first instruction that cannot be compiled. -/
def text (p : Program) : String :=
  preamble ++ render 0 (compile p).items

/-- Why no complete assembly text was written, with a writer whose errors are in `ε`. -/
inductive EmitError (ε : Type := Sink.Refusal) where
  /-- The program is not linked. -/
  | unlinked
  /-- An instruction cannot be compiled. -/
  | bad (e : BadInstruction)
  /-- The writer did not take all of the text, and said why. -/
  | output (e : ε)
  deriving DecidableEq, Repr

section

variable {σ ε : Type} [Writer σ ε]

/-- Write items to a buffer, a line each. -/
def writeItems (tab : Nat) (b : Buffer σ ε) (items : List Item) : Buffer σ ε :=
  items.foldl (fun b item => b.write (item.text tab ++ "\n")) b

/-- Write the assembly text of a program through a buffer.  An instruction that cannot be compiled
leaves unwritten what the buffer holds, and is reported even if the writer has failed before. -/
def emit (p : Program) (sink : σ) : σ × Option (EmitError ε) :=
  if p.linked then
    let c := compile p
    let front := writeItems routineTab { sink } (header ++ dumpRoutine ++ entry)
    let all := writeItems 0 front c.items
    match c.bad with
    | some e => (all.sink, some (.bad e))
    | none => (all.flush.sink, all.flush.error.map .output)
  else (sink, some .unlinked)

end

end StackLang.Assembly

import StackLang.Assembly.Registers
import StackLang.Assembly.Compile

/-!
# Running compiled code

The processor as far as compiled code uses it, above the level its stack had at the start.  The
routine that writes numbers, where it stands at its label, is taken as a whole: it writes the line
and may leave anything in the registers, which is the parameter `leave`.
-/

set_option autoImplicit false

namespace StackLang.Assembly

/-- All items of the text of a program. -/
def items (p : Program) : List Item := header ++ dumpRoutine ++ entry ++ (compile p).items

/-- Whether the routine that writes numbers, from its label on, stands where the label is found. -/
def hasRoutine (code : List Item) : Bool :=
  (labelAt? code .dump).any fun pc => dumpRoutine.tail.isPrefixOf (code.drop pc)

/-- A processor between two instructions. -/
structure Native where
  /-- The place of the next item. -/
  pc : Nat
  data : Datapath
  /-- The entries of the stack, topmost first. -/
  stack : List UInt64 := []
  out : String := ""
  /-- Whether the process has been left. -/
  exited : Bool := false

namespace Native

/-- Go on with the next item. -/
def next (m : Native) : Native := { m with pc := m.pc + 1 }

/-- Go to a label. -/
def goto (code : List Item) (m : Native) (l : Label) : Option Native :=
  (labelAt? code l).map fun pc => { m with pc }

/-- Execute one instruction, if compiled code has a use for it. -/
def exec (leave : Native → Registers) (code : List Item) (m : Native) (i : Inst) :
    Option Native :=
  match i with
  | .pushImm imm => some { m.next with stack := operand imm :: m.stack }
  | .push r => some { m.next with stack := m.data.regs r :: m.stack }
  | .pop r =>
    match m.stack with
    | [] => none
    | v :: rest =>
      some { m.next with stack := rest, data := { m.data with regs := m.data.regs.set r v } }
  | .jmp l => m.goto code l
  | .jumpZero l =>
    m.data.conditions.bind fun k => if k.zero then m.goto code l else some m.next
  | .call .dump =>
    if hasRoutine code then
      some { m.next with
        data := { regs := leave m }
        out := m.out ++ toString (m.data.regs .rdi).toInt64 ++ "\n" }
    else none
  | .syscall => if m.data.regs .rax = 60 then some { m with exited := true } else none
  | i => (m.data.compute i).map fun data => { m.next with data }

/-- Pass one item.  A process that has been left does not go on. -/
def step (leave : Native → Registers) (code : List Item) : Native → Option Native :=
  Processor.step ⟨pc, exited, next, exec leave code⟩ code

/-- The start of a process, with anything in the registers. -/
def start? (code : List Item) (regs : Registers) : Option Native :=
  (labelAt? code .start).map fun pc => { pc, data := { regs } }

end Native

end StackLang.Assembly

import StackLang.Assembly.Registers
import StackLang.Assembly.Compile

/-!
# Running the routine that writes numbers

The processor as far as the routine uses it, with memory as octets.  A system call for writing is
recorded; it leaves memory and the stack pointer alone, and may leave anything in the other
registers, which is the parameter `leave`.
-/

set_option autoImplicit false

namespace StackLang.Assembly

/-- Octets by their address. -/
abbrev Octets := UInt64 → UInt8

/-- The octets with a new one at an address. -/
def Octets.set (m : Octets) (a : UInt64) (b : UInt8) : Octets := fun x => if x = a then b else m x

/-- The octets of a region. -/
def Octets.region (m : Octets) (a : UInt64) (n : Nat) : List UInt8 :=
  (List.range n).map fun i => m (a + UInt64.ofNat i)

/-- A processor between two instructions of the routine. -/
structure Routine where
  /-- The place of the next item. -/
  pc : Nat
  data : Datapath
  memory : Octets
  /-- The addresses that have been stored to, latest first. -/
  stores : List UInt64 := []
  /-- The texts that have been written to the standard output, latest first. -/
  writes : List (List UInt8) := []
  /-- Whether the routine has returned. -/
  returned : Bool := false

namespace Routine

/-- Go on with the next item. -/
def next (m : Routine) : Routine := { m with pc := m.pc + 1 }

/-- Go to a label. -/
def goto (code : List Item) (m : Routine) (l : Label) : Option Routine :=
  (labelAt? code l).map fun pc => { m with pc }

/-- Store an octet. -/
def store (m : Routine) (p : Place) (b : UInt8) : Routine :=
  let a := p.address m.data.regs
  { m.next with memory := m.memory.set a b, stores := a :: m.stores }

/-- Execute one instruction, if the routine has a use for it. -/
def exec (leave : Routine → Registers) (code : List Item) (m : Routine) (i : Inst) :
    Option Routine :=
  let regs := m.data.regs
  match i with
  | .storeImm p n => some (m.store p (UInt8.ofNat n))
  | .storeByte p => some (m.store p (regs .rax).toUInt8)
  | .jumpNotSign l =>
    m.data.conditions.bind fun k => if k.sign then some m.next else m.goto code l
  | .jumpAbove l =>
    m.data.conditions.bind fun k => if k.above then m.goto code l else some m.next
  | .syscall =>
    if regs .rax = 1 ∧ regs .rdi = 1 then
      some { m.next with
        data := { regs := (leave m).set .rsp (regs .rsp) }
        writes := m.memory.region (regs .rsi) (regs .rdx).toNat :: m.writes }
    else none
  | .ret => some { m with returned := true }
  | i => (m.data.compute i).map fun data => { m.next with data }

/-- Pass one item.  A routine that has returned does not go on. -/
def step (leave : Routine → Registers) (code : List Item) : Routine → Option Routine :=
  Processor.step ⟨pc, returned, next, exec leave code⟩ code

/-- The routine at its entry. -/
def start? (code : List Item) (regs : Registers) (memory : Octets) : Option Routine :=
  (labelAt? code .dump).map fun pc => { pc, data := { regs }, memory }

end Routine

end StackLang.Assembly

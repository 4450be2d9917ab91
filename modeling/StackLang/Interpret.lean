import StackLang.Machine

/-!
# Running a program with a budget

`Program.interpret` runs a program from its start for a bounded number of instructions and keeps
what it wrote.
-/

set_option autoImplicit false

namespace StackLang

/-- Why a bounded run did not reach the end of a program. -/
inductive RunError where
  /-- The program is not linked. -/
  | unlinked
  /-- An instruction could not be executed. -/
  | fault (f : Fault)
  /-- The budget was used up. -/
  | stepLimit
  deriving DecidableEq, Repr

/-- What a bounded run did. -/
structure Interpretation where
  out : String
  steps : Nat
  error : Option RunError
  deriving DecidableEq, Repr

/-- Run `p` for at most `maxSteps` instructions. -/
def Program.interpret (p : Program) (maxSteps : Nat) : Interpretation :=
  match Machine.ofProgram? p (Sink.buffer "") with
  | none => ⟨"", 0, some .unlinked⟩
  | some m =>
    match m.runFor maxSteps with
    | (m', .halted) => ⟨m'.out.text, m'.steps, none⟩
    | (m', .faulted f) => ⟨m'.out.text, m'.steps, some (.fault f)⟩
    | (m', .running) => ⟨m'.out.text, m'.steps, some .stepLimit⟩

/-- The budget of a run when none is given. -/
def defaultMaxSteps : Nat := 10000000

end StackLang

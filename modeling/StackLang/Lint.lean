import StackLang.Program

/-!
# Static checks of the jumps of a program

A linked program that came from source text has its jumps where the blocks put them.  A program
that was read from a listing need not: `Program.lint` finds undefined operations, jumps that leave
the program, and jumps that do not land where a block of their kind could end.
-/

set_option autoImplicit false

namespace StackLang

/-- What a check found. -/
inductive Finding where
  /-- The program has not been linked. -/
  | unlinked
  /-- The operation is undefined. -/
  | undefinedOp
  /-- The jump leaves a program of the given length. -/
  | outside (target : Int64) (length : Nat)
  /-- An `IF` does not go forward. -/
  | branchBackwards (target : Nat)
  /-- An `IF` goes neither past an `ELSE` nor onto an `END`. -/
  | branchTarget (target : Nat)
  /-- An `ELSE` does not go onto a following `END`. -/
  | otherwiseTarget (target : Nat)
  /-- An `END` goes neither to its successor nor back to a `WHILE`. -/
  | closeTarget (target : Nat)
  /-- A `DO` does not go past a following `END`. -/
  | bodyTarget (target : Nat)
  /-- A `DO` goes past an `END` that does not go back to a `WHILE` before the `DO`. -/
  | bodyLoop (target : Nat)
  deriving DecidableEq, Repr

namespace Finding

/-- The kinds of findings: whether the jumps fit the blocks, and whether they stay inside. -/
inductive Kind where
  | struct
  | range
  deriving DecidableEq, Repr

/-- The name of a kind. -/
def Kind.name : Kind → String
  | struct => "STRUCT"
  | range => "RANGE"

/-- Only a jump out of the program is a matter of range. -/
def kind : Finding → Kind
  | outside _ _ => .range
  | _ => .struct

/-- The finding in words. -/
def message : Finding → String
  | unlinked => "program has not been resolved"
  | undefinedOp => "undefined operation"
  | outside target length =>
    "jump target " ++ toString target ++ " outside [0, " ++ toString length ++ "]"
  | branchBackwards target => "IF jumps backwards to " ++ toString target
  | branchTarget target =>
    "IF target " ++ toString target ++ " is neither past an ELSE nor an END"
  | otherwiseTarget target => "ELSE target " ++ toString target ++ " is not a following END"
  | closeTarget target =>
    "END target " ++ toString target ++ " is neither its successor nor a preceding WHILE"
  | bodyTarget target => "DO target " ++ toString target ++ " is not past a following END"
  | bodyLoop target =>
    "DO exits past the END at " ++ toString (target - 1) ++
      ", which does not loop back to a WHILE before it"

/-- The numbers a finding is about, by name. -/
def details : Finding → List (String × Int)
  | unlinked | undefinedOp => []
  | outside target length => [("target", target.toInt), ("length", length)]
  | branchBackwards target | branchTarget target | otherwiseTarget target | closeTarget target
  | bodyTarget target | bodyLoop target => [("target", target)]

end Finding

/-- A finding at an instruction, or about the whole program. -/
structure Issue where
  at? : Option (Nat × Op)
  finding : Finding
  deriving DecidableEq, Repr

/-- The kind, the place and the words of an issue. -/
def Issue.message (i : Issue) : String :=
  match i.at? with
  | none => "[" ++ i.finding.kind.name ++ "] " ++ i.finding.message
  | some (addr, op) =>
    "[" ++ i.finding.kind.name ++ "] address " ++ toString addr ++ " (" ++ op.name ++ "): " ++
      i.finding.message

namespace Lint

/-- Check a jump at `addr` to an address `target` of the program. -/
def checkTarget (code : Array Instr) (addr target : Nat) (op : Op) : Option Finding :=
  let opAt (a : Nat) : Option Op := code[a]?.map Instr.op
  match op with
  | .branch =>
    if target ≤ addr then some (.branchBackwards target)
    else if opAt (target - 1) ≠ some .otherwise ∧ opAt target ≠ some .close then
      some (.branchTarget target)
    else none
  | .otherwise =>
    if target ≤ addr ∨ opAt target ≠ some .close then some (.otherwiseTarget target) else none
  | .close =>
    if target = addr + 1 then none
    else if addr ≤ target ∨ opAt target ≠ some .loop then some (.closeTarget target)
    else none
  | .body =>
    if target ≤ addr + 1 ∨ opAt (target - 1) ≠ some .close then some (.bodyTarget target)
    else
      let back := (code.getD (target - 1) default).imm.toInt
      if back < 0 ∨ (addr : Int) ≤ back ∨ opAt back.toNat ≠ some .loop then
        some (.bodyLoop target)
      else none
  | _ => none

/-- Check the instruction at `addr`. -/
def checkInstr (code : Array Instr) (addr : Nat) (i : Instr) : Option Finding :=
  if !i.op.isDefined then some .undefinedOp
  else if !i.op.isJump then none
  else if i.imm.toInt < 0 ∨ (code.size : Int) < i.imm.toInt then
    some (.outside i.imm code.size)
  else checkTarget code addr i.imm.toInt.toNat i.op

/-- Check the instructions from `addr` on. -/
def checkFrom (code : Array Instr) (addr : Nat) : List Instr → List Issue
  | [] => []
  | i :: rest =>
    match checkInstr code addr i with
    | some f => ⟨some (addr, i.op), f⟩ :: checkFrom code (addr + 1) rest
    | none => checkFrom code (addr + 1) rest

end Lint

/-- The issues of a program, by address. -/
def Program.lint (p : Program) : List Issue :=
  if p.linked then Lint.checkFrom p.code 0 p.code.toList else [⟨none, .unlinked⟩]

end StackLang

import StackLang.Program

/-!
# Linking

Linking pairs the words of every `IF … ELSE … END` and `WHILE … DO … END` block and writes the
address of the partner into each jump.  One walk over the code keeps the addresses of the open
blocks on a stack.  In a linked program

* the `IF` of a block goes just past its `ELSE`, or onto its `END`, when the condition is 0;
* `ELSE` goes onto its `END`;
* the `END` of an `IF` goes on with the next address;
* the `END` of a loop goes back to its `WHILE`, and `DO` goes just past that `END`.

Between `DO` and its `END` the immediate of `DO` holds the address of the `WHILE`; a walk that
fails leaves the code as far as it came.
-/

set_option autoImplicit false

namespace StackLang

/-- Why the words of the blocks do not pair up. -/
inductive Mismatch where
  /-- `ELSE`, `END` or `DO` with no open block to continue or close. -/
  | nothingOpen
  /-- The innermost open block, opened by `opener` at `addr`, is of another kind. -/
  | wrongBlock (opener : Op) (addr : Nat)
  /-- The program ends inside a block. -/
  | unterminated
  deriving DecidableEq, Repr

/-- A word at which the blocks do not pair up: the word that has no partner, or the word that
opened the innermost unfinished block. -/
structure StructureError where
  addr : Nat
  op : Op
  cause : Mismatch
  deriving DecidableEq, Repr

namespace StructureError

/-- The reason in words. -/
def reason (e : StructureError) : String :=
  match e.cause with
  | .nothingOpen =>
    match e.op with
    | .otherwise => "ELSE without an open IF"
    | .body => "DO without an open WHILE"
    | op => op.name ++ " without an open block"
  | .wrongBlock opener addr =>
    e.op.name ++ " cannot close " ++ opener.name ++ " at address " ++ toString addr
  | .unterminated => "unterminated block"

/-- Where the blocks do not pair up, and why. -/
def message (e : StructureError) : String :=
  "address " ++ toString e.addr ++ " (" ++ e.op.name ++ "): " ++ e.reason

end StructureError

/-- The walk over a program: the code as linked so far, and the addresses of the open blocks,
innermost first. -/
structure Linker where
  code : Array Instr
  opened : List Nat := []

namespace Linker

/-- The instruction at an address of the walk. -/
def instrAt (s : Linker) (addr : Nat) : Instr := s.code.getD addr default

/-- An address as an immediate. -/
def address (addr : Nat) : Int64 := Int64.ofNat addr

/-- Visit `ELSE` at `ip`: it continues an `IF`, which then goes past it. -/
def visitOtherwise (s : Linker) (ip : Nat) : Linker × Option StructureError :=
  match s.opened with
  | [] => (s, some ⟨ip, .otherwise, .nothingOpen⟩)
  | a :: rest =>
    let opener := (s.instrAt a).op
    if opener = .branch then
      ({ code := Instr.setImmAt s.code a (address (ip + 1)), opened := ip :: rest }, none)
    else (s, some ⟨ip, .otherwise, .wrongBlock opener a⟩)

/-- Visit `DO` at `ip`: it continues a `WHILE`, whose address it keeps. -/
def visitBody (s : Linker) (ip : Nat) : Linker × Option StructureError :=
  match s.opened with
  | [] => (s, some ⟨ip, .body, .nothingOpen⟩)
  | a :: rest =>
    let opener := (s.instrAt a).op
    if opener = .loop then
      ({ code := Instr.setImmAt s.code ip (address a), opened := ip :: rest }, none)
    else (s, some ⟨ip, .body, .wrongBlock opener a⟩)

/-- Visit `END` at `ip`: it closes an `IF`, an `ELSE` or a `DO`. -/
def visitClose (s : Linker) (ip : Nat) : Linker × Option StructureError :=
  match s.opened with
  | [] => (s, some ⟨ip, .close, .nothingOpen⟩)
  | a :: rest =>
    let opener := s.instrAt a
    match opener.op with
    | .branch | .otherwise =>
      ({ code := Instr.setImmAt (Instr.setImmAt s.code a (address ip)) ip (address (ip + 1)),
         opened := rest }, none)
    | .body =>
      ({ code := Instr.setImmAt (Instr.setImmAt s.code ip opener.imm) a (address (ip + 1)),
         opened := rest }, none)
    | op => (s, some ⟨ip, .close, .wrongBlock op a⟩)

/-- Visit the instruction at `ip`.  A word that does not fit changes no code. -/
def visit (s : Linker) (ip : Nat) : Linker × Option StructureError :=
  match (s.instrAt ip).op with
  | .branch | .loop => ({ s with opened := ip :: s.opened }, none)
  | .otherwise => s.visitOtherwise ip
  | .body => s.visitBody ip
  | .close => s.visitClose ip
  | _ => (s, none)

/-- Visit addresses in turn, up to the first word that does not fit. -/
def walk (s : Linker) : List Nat → Linker × Option StructureError
  | [] => (s, none)
  | ip :: rest =>
    match s.visit ip with
    | (s', none) => s'.walk rest
    | (s', some e) => (s', some e)

/-- Walk over all the code, and check that no block is left open. -/
def finish (s : Linker) : Linker × Option StructureError :=
  match s.walk (List.range s.code.size) with
  | (s', some e) => (s', some e)
  | (s', none) =>
    match s'.opened with
    | [] => (s', none)
    | a :: _ => (s', some ⟨a, (s'.instrAt a).op, .unterminated⟩)

end Linker

/-- Why a program cannot be linked. -/
inductive LinkError where
  /-- It has been linked before. -/
  | alreadyLinked
  /-- Its blocks do not pair up. -/
  | structural (e : StructureError)
  deriving DecidableEq, Repr

/-- Link a program.  The program that comes back with an error holds the code as far as the walk
came. -/
def Program.link (p : Program) : Program × Option LinkError :=
  if p.linked then (p, some .alreadyLinked)
  else
    match Linker.finish { code := p.code } with
    | (s, none) => ({ p with code := s.code, linked := true }, none)
    | (s, some e) => ({ p with code := s.code }, some (.structural e))

end StackLang

import StackLang.Program

/-!
# Blocks

The structured form of a program: a sequence of plain instructions, choices and loops.
`Block.flatten` writes a block as the flat code that a source text stands for, and `Block.linkedAt`
as the code in which every jump holds its target.  `Block.Runs` is the meaning of a block without
any addresses: how it changes an operand stack and what it writes.
-/

set_option autoImplicit false

namespace StackLang

/-- Whether an operation is one of the words that blocks are made of. -/
def Op.isBlockWord : Op → Bool
  | branch | otherwise | close | loop | body => true
  | _ => false

/-- An instruction that is no word of a block. -/
structure PlainInstr where
  instr : Instr
  isPlain : instr.op.isBlockWord = false

/-- A sequence of plain instructions, choices and loops. -/
inductive Block where
  | nil
  | plain (i : PlainInstr) (rest : Block)
  /-- `IF yes END` -/
  | when (yes rest : Block)
  /-- `IF yes ELSE no END` -/
  | choice (yes no rest : Block)
  /-- `WHILE condition DO body END` -/
  | loop (condition body rest : Block)

namespace Block

/-! ## Flat code -/

/-- The operations of a block in the order of its words. -/
def ops : Block → List Op
  | nil => []
  | plain i rest => i.instr.op :: rest.ops
  | when yes rest => .branch :: yes.ops ++ .close :: rest.ops
  | choice yes no rest => .branch :: yes.ops ++ .otherwise :: no.ops ++ .close :: rest.ops
  | loop condition body rest =>
    .loop :: condition.ops ++ .body :: body.ops ++ .close :: rest.ops

/-- The number of words of a block. -/
def size (b : Block) : Nat := b.ops.length

/-- The code of a block before linking. -/
def flatten : Block → List Instr
  | nil => []
  | plain i rest => i.instr :: rest.flatten
  | when yes rest => { op := .branch } :: yes.flatten ++ { op := .close } :: rest.flatten
  | choice yes no rest =>
    { op := .branch } :: yes.flatten ++ { op := .otherwise } :: no.flatten ++
      { op := .close } :: rest.flatten
  | loop condition body rest =>
    { op := .loop } :: condition.flatten ++ { op := .body } :: body.flatten ++
      { op := .close } :: rest.flatten

/-- A jump with its target. -/
def jump (op : Op) (target : Nat) : Instr := { op, imm := Int64.ofNat target }

/-- The code of a block at address `a` with every jump linked. -/
def linkedAt (a : Nat) : Block → List Instr
  | nil => []
  | plain i rest => i.instr :: rest.linkedAt (a + 1)
  | when yes rest =>
    let z := a + 1 + yes.size
    jump .branch z :: yes.linkedAt (a + 1) ++ jump .close (z + 1) :: rest.linkedAt (z + 1)
  | choice yes no rest =>
    let e := a + 1 + yes.size
    let z := e + 1 + no.size
    jump .branch (e + 1) :: yes.linkedAt (a + 1) ++ jump .otherwise z :: no.linkedAt (e + 1) ++
      jump .close (z + 1) :: rest.linkedAt (z + 1)
  | loop condition body rest =>
    let d := a + 1 + condition.size
    let z := d + 1 + body.size
    { op := .loop } :: condition.linkedAt (a + 1) ++ jump .body (z + 1) ::
      body.linkedAt (d + 1) ++ jump .close a :: rest.linkedAt (z + 1)

/-- Whether all operations of a block are defined. -/
def isDefined (b : Block) : Bool := b.ops.all Op.isDefined

/-! ## Meaning -/

/-- What a block works on: an operand stack, topmost value first, and what has been written. -/
structure Store where
  stack : List Int64 := []
  out : String := ""
  deriving DecidableEq, Repr

/-- How a block ends. -/
inductive Ending where
  /-- At its end. -/
  | done (s : Store)
  /-- At an operand that is missing, after some output. -/
  | underflow (out : String)
  deriving DecidableEq, Repr

/-- A truth value as an operand. -/
def ofTruth (b : Bool) : Int64 := if b then 1 else 0

/-- What a defined plain operation does, unless an operand is missing. -/
def Store.apply (s : Store) (i : Instr) : Option Store :=
  match i.op, s.stack with
  | .push, st => some { s with stack := i.imm :: st }
  | .plus, a :: b :: st => some { s with stack := (b + a) :: st }
  | .minus, a :: b :: st => some { s with stack := (b - a) :: st }
  | .equal, a :: b :: st => some { s with stack := ofTruth (decide (b = a)) :: st }
  | .greater, a :: b :: st => some { s with stack := ofTruth (decide (a < b)) :: st }
  | .pushTrue, st => some { s with stack := 1 :: st }
  | .pushFalse, st => some { s with stack := 0 :: st }
  | .dupl, a :: st => some { s with stack := a :: a :: st }
  | .mem, st => some { s with stack := 0 :: st }
  | .dump, a :: st => some { stack := st, out := s.out ++ toString a ++ "\n" }
  | _, _ => none

/-- **The meaning of blocks.**  A block run from a store ends in one way, or not at all. -/
inductive Runs : Block → Store → Ending → Prop
  | nil {s : Store} : Runs nil s (.done s)
  | plain {i : PlainInstr} {rest : Block} {s t : Store} {e : Ending} :
      s.apply i.instr = some t → Runs rest t e → Runs (.plain i rest) s e
  | plainUnder {i : PlainInstr} {rest : Block} {s : Store} :
      i.instr.op.isDefined = true → s.apply i.instr = none →
      Runs (.plain i rest) s (.underflow s.out)
  | whenUnder {yes rest : Block} {o : String} :
      Runs (.when yes rest) ⟨[], o⟩ (.underflow o)
  | whenZero {yes rest : Block} {st : List Int64} {o : String} {e : Ending} :
      Runs rest ⟨st, o⟩ e → Runs (.when yes rest) ⟨0 :: st, o⟩ e
  | whenYes {yes rest : Block} {a : Int64} {st : List Int64} {o : String} {t : Store}
      {e : Ending} :
      a ≠ 0 → Runs yes ⟨st, o⟩ (.done t) → Runs rest t e → Runs (.when yes rest) ⟨a :: st, o⟩ e
  | whenStop {yes rest : Block} {a : Int64} {st : List Int64} {o o' : String} :
      a ≠ 0 → Runs yes ⟨st, o⟩ (.underflow o') →
      Runs (.when yes rest) ⟨a :: st, o⟩ (.underflow o')
  | choiceUnder {yes no rest : Block} {o : String} :
      Runs (.choice yes no rest) ⟨[], o⟩ (.underflow o)
  | choiceYes {yes no rest : Block} {a : Int64} {st : List Int64} {o : String} {t : Store}
      {e : Ending} :
      a ≠ 0 → Runs yes ⟨st, o⟩ (.done t) → Runs rest t e →
      Runs (.choice yes no rest) ⟨a :: st, o⟩ e
  | choiceYesStop {yes no rest : Block} {a : Int64} {st : List Int64} {o o' : String} :
      a ≠ 0 → Runs yes ⟨st, o⟩ (.underflow o') →
      Runs (.choice yes no rest) ⟨a :: st, o⟩ (.underflow o')
  | choiceNo {yes no rest : Block} {st : List Int64} {o : String} {t : Store} {e : Ending} :
      Runs no ⟨st, o⟩ (.done t) → Runs rest t e → Runs (.choice yes no rest) ⟨0 :: st, o⟩ e
  | choiceNoStop {yes no rest : Block} {st : List Int64} {o o' : String} :
      Runs no ⟨st, o⟩ (.underflow o') →
      Runs (.choice yes no rest) ⟨0 :: st, o⟩ (.underflow o')
  | loopStop {condition body rest : Block} {s : Store} {o : String} :
      Runs condition s (.underflow o) → Runs (.loop condition body rest) s (.underflow o)
  | loopUnder {condition body rest : Block} {s : Store} {o : String} :
      Runs condition s (.done ⟨[], o⟩) → Runs (.loop condition body rest) s (.underflow o)
  | loopEnd {condition body rest : Block} {s : Store} {st : List Int64} {o : String}
      {e : Ending} :
      Runs condition s (.done ⟨0 :: st, o⟩) → Runs rest ⟨st, o⟩ e →
      Runs (.loop condition body rest) s e
  | loopAgain {condition body rest : Block} {s t : Store} {a : Int64} {st : List Int64}
      {o : String} {e : Ending} :
      Runs condition s (.done ⟨a :: st, o⟩) → a ≠ 0 → Runs body ⟨st, o⟩ (.done t) →
      Runs (.loop condition body rest) t e → Runs (.loop condition body rest) s e
  | loopBodyStop {condition body rest : Block} {s : Store} {a : Int64} {st : List Int64}
      {o o' : String} :
      Runs condition s (.done ⟨a :: st, o⟩) → a ≠ 0 → Runs body ⟨st, o⟩ (.underflow o') →
      Runs (.loop condition body rest) s (.underflow o')

end Block

end StackLang

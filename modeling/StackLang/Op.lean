/-!
# Operations

The fifteen operations of the stack language.  An operation travels as one octet, its code; codes
from 15 on name no operation, and a program that holds one can be shown and checked but not run.
`Op.ofCode` and `Op.code` are inverse to each other, and `Op.ofName?` reads back what `Op.name`
writes for a defined operation.
-/

set_option autoImplicit false

namespace StackLang

/-- An operation, or a code that names none. -/
inductive Op where
  /-- Push the immediate. -/
  | push
  /-- Replace the two topmost entries by their sum. -/
  | plus
  /-- Replace the two topmost entries by their difference. -/
  | minus
  /-- Replace the two topmost entries by 1 if they are equal, else by 0. -/
  | equal
  /-- Replace the two topmost entries by 1 if the lower one is greater, else by 0. -/
  | greater
  /-- Push 1. -/
  | pushTrue
  /-- Push 0. -/
  | pushFalse
  /-- Pop a condition; go on after the matching `otherwise` or `close` if it is 0. -/
  | branch
  /-- Go to the matching `close`. -/
  | otherwise
  /-- Close a block; the close of a loop goes back to its start. -/
  | close
  /-- Start of a loop. -/
  | loop
  /-- Pop the condition of a loop; leave the loop if it is 0. -/
  | body
  /-- Push a copy of the topmost entry. -/
  | dupl
  /-- Push the address of the static memory. -/
  | mem
  /-- Pop the topmost entry and write it as a line of output. -/
  | dump
  /-- The code `15 + k`, which names no operation. -/
  | undefined (k : Fin 241)
  deriving DecidableEq, Repr, Inhabited

namespace Op

/-- The octet of an operation. -/
def code : Op → Nat
  | push => 0
  | plus => 1
  | minus => 2
  | equal => 3
  | greater => 4
  | pushTrue => 5
  | pushFalse => 6
  | branch => 7
  | otherwise => 8
  | close => 9
  | loop => 10
  | body => 11
  | dupl => 12
  | mem => 13
  | dump => 14
  | undefined k => 15 + k.val

/-- The defined operations, in the order of their codes. -/
def all : List Op :=
  [push, plus, minus, equal, greater, pushTrue, pushFalse, branch, otherwise, close, loop, body,
    dupl, mem, dump]

/-- The operation with the octet `n`, taken modulo 256. -/
def ofCode (n : Nat) : Op :=
  match n % 256 with
  | 0 => push
  | 1 => plus
  | 2 => minus
  | 3 => equal
  | 4 => greater
  | 5 => pushTrue
  | 6 => pushFalse
  | 7 => branch
  | 8 => otherwise
  | 9 => close
  | 10 => loop
  | 11 => body
  | 12 => dupl
  | 13 => mem
  | 14 => dump
  | m => undefined (Fin.ofNat 241 (m - 15))

/-- Whether the code names an operation. -/
def isDefined : Op → Bool
  | undefined _ => false
  | _ => true

/-- Whether the immediate is an address to go to. -/
def isJump : Op → Bool
  | branch | otherwise | close | body => true
  | _ => false

/-- The mnemonic of an operation. -/
def name : Op → String
  | push => "PUSH"
  | plus => "PLUS"
  | minus => "MINUS"
  | equal => "EQUAL"
  | greater => "GREATER_THAN"
  | pushTrue => "TRUE"
  | pushFalse => "FALSE"
  | branch => "IF"
  | otherwise => "ELSE"
  | close => "END"
  | loop => "WHILE"
  | body => "DO"
  | dupl => "DUPL"
  | mem => "MEM"
  | dump => "DUMP"
  | undefined k => "Op(" ++ toString (15 + k.val) ++ ")"

/-- The defined operation with this mnemonic. -/
def ofName? (s : String) : Option Op :=
  all.find? fun o => o.name == s

end Op

/-- The size of the static memory in bytes. -/
def memoryCapacity : Nat := 640000

end StackLang

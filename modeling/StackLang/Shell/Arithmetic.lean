import StackLang.Shell.Number
import StackLang.Shell.Script

/-!
# Arithmetic of scripts

Expressions over 64-bit integers and variables.  They are evaluated while they are read; the parts
that a condition leaves out are read all the same, but nothing is assigned there.
-/

set_option autoImplicit false

namespace StackLang.Shell

/-- Why an expression has no value. -/
inductive SumProblem where
  /-- It cannot be read, or divides by zero. -/
  | expression (reason : String)
  /-- A variable is not a number. -/
  | illegalNumber (text : String)
  /-- A variable cannot be changed. -/
  | fixed (name : String)
  deriving DecidableEq, Repr

/-- A symbol of an expression. -/
inductive Symbol where
  | finish
  | number (n : Int64)
  | name (s : String)
  | operator (s : String)
  | unknown
  deriving DecidableEq, Repr

/-- The operators, longer ones before those they start with. -/
def sumOperators : List String :=
  ["<<=", ">>=", "<<", ">>", "<=", ">=", "==", "!=", "&&", "||", "+=", "-=", "*=", "/=", "%=",
    "&=", "|=", "^=", "+", "-", "*", "/", "%", "<", ">", "&", "|", "^", "!", "~", "?", ":", "(",
    ")", "="]

/-- The next symbol, and the rest. -/
def takeSymbol (cs : List Char) : Symbol × List Char :=
  match cs.dropWhile isBlank with
  | [] => (.finish, [])
  | c :: rest =>
    if isDigit c then
      let n := readNumeral true (c :: rest)
      (.number (Int64.ofInt n.signed.1), n.rest)
    else if isNameStart c then
      let name := (c :: rest).takeWhile isNameChar
      (.name (String.ofList name), (c :: rest).drop name.length)
    else
      match sumOperators.find? fun op => op.toList.isPrefixOf (c :: rest) with
      | some op => (.operator op, (c :: rest).drop op.length)
      | none => (.unknown, rest)

/-- What an evaluation knows: the symbol that is next, the rest, and the variables. -/
structure Reckoning where
  next : Symbol
  rest : List Char
  /-- The values of variables. -/
  value? : String → Option String
  /-- Whether a variable cannot be changed. -/
  isFixed : String → Bool
  /-- The variables that have been assigned, the last one first. -/
  assigned : List (String × Int64) := []

/-- Evaluating an expression. -/
abbrev Reckon := StateT Reckoning (Except SumProblem)

namespace Reckon

/-- Go on to the next symbol. -/
def advance : Reckon Unit := modify fun r =>
  let (next, rest) := takeSymbol r.rest
  { r with next, rest }

/-- Stop with a reason. -/
def fail {α : Type} (reason : String) : Reckon α := throw (.expression reason)

/-- The value of a variable.  One without a value, or an empty one, is zero. -/
def lookup (name : String) : Reckon Int64 := do
  let r ← get
  match r.assigned.lookup name with
  | some n => return n
  | none =>
    let text := (r.value? name).getD ""
    let n := readNumeral true text.toList
    let (value, tooLarge) := n.signed
    let rest := if n.missing then text.toList else n.rest
    if tooLarge || !rest.all isBlank then throw (.illegalNumber text)
    return Int64.ofInt value

/-- Give a variable a value. -/
def assign (name : String) (n : Int64) : Reckon Int64 := do
  if (← get).isFixed name then throw (.fixed name)
  modify fun r => { r with assigned := (name, n) :: r.assigned }
  return n

/-- A truth value as a number. -/
def truth (b : Bool) : Int64 := if b then 1 else 0

/-- The value of an operator with two operands. -/
def operate (op : String) (a b : Int64) : Reckon Int64 :=
  match op with
  | "*" => return a * b
  | "/" => if b == 0 then fail "division by zero" else return a / b
  | "%" => if b == 0 then fail "division by zero" else return a % b
  | "+" => return a + b
  | "-" => return a - b
  | "<<" => return a <<< (b &&& 63)
  | ">>" => return a >>> (b &&& 63)
  | "<" => return truth (a < b)
  | "<=" => return truth (a ≤ b)
  | ">" => return truth (b < a)
  | ">=" => return truth (b ≤ a)
  | "==" => return truth (a == b)
  | "!=" => return truth (a != b)
  | "&" => return a &&& b
  | "^" => return a ^^^ b
  | _ => return a ||| b

/-- How closely an operator binds its operands: the smaller, the closer. -/
def precedence? : String → Option Nat
  | "*" | "/" | "%" => some 0
  | "+" | "-" => some 1
  | "<<" | ">>" => some 2
  | "<" | "<=" | ">" | ">=" => some 3
  | "==" | "!=" => some 4
  | "&" => some 5
  | "^" => some 6
  | "|" => some 7
  | _ => none

/-- The precedence of a symbol that is an operator with two operands. -/
def binary? : Symbol → Option (String × Nat)
  | .operator op => (precedence? op).map (op, ·)
  | _ => none

/-- The operator that an assignment applies first, empty for a plain one. -/
def assignment? : Symbol → Option String
  | .operator "=" => some ""
  | .operator op =>
    if ["+=", "-=", "*=", "/=", "%=", "<<=", ">>=", "&=", "|=", "^="].contains op then
      some (op.dropEnd 1).toString
    else none
  | _ => none

mutual

/-- An assignment or an expression without one.  Unless it is `live`, nothing is assigned. -/
def whole (live : Bool) : (fuel : Nat) → Reckon Int64
  | 0 => fail "expecting primary"
  | n + 1 => do
    let r ← get
    match r.next with
    | .name name =>
      advance
      match assignment? (← get).next with
      | none =>
        set r
        conditional live n
      | some op =>
        advance
        let b ← whole live n
        if !live then return b
        else if op == "" then assign name b
        else assign name (← operate op (← lookup name) b)
    | _ => conditional live n

/-- A choice between two values. -/
def conditional (live : Bool) : (fuel : Nat) → Reckon Int64
  | 0 => fail "expecting primary"
  | n + 1 => do
    let a ← disjunction live n
    if (← get).next != .operator "?" then return a
    advance
    let b ← whole (live && a != 0) n
    if (← get).next != .operator ":" then fail "expecting ':'"
    advance
    let c ← conditional (live && a == 0) n
    return if a != 0 then b else c

/-- Values of which one is to be true. -/
def disjunction (live : Bool) : (fuel : Nat) → Reckon Int64
  | 0 => fail "expecting primary"
  | n + 1 => do
    let a ← conjunction live n
    if (← get).next != .operator "||" then return a
    advance
    let b ← disjunction (live && a == 0) n
    return truth (a != 0 || b != 0)

/-- Values which are all to be true. -/
def conjunction (live : Bool) : (fuel : Nat) → Reckon Int64
  | 0 => fail "expecting primary"
  | n + 1 => do
    let a ← primary live n
    let a ← binary live a 8 n
    if (← get).next != .operator "&&" then return a
    advance
    let b ← conjunction (live && a != 0) n
    return truth (a != 0 && b != 0)

/-- Operators that bind more closely than `limit`, behind a first operand. -/
def binary (live : Bool) (a : Int64) (limit : Nat) : (fuel : Nat) → Reckon Int64
  | 0 => return a
  | n + 1 => do
    match binary? (← get).next with
    | none => return a
    | some (op, p) =>
      if limit ≤ p then return a
      advance
      let b ← primary live n
      let b ← binary live b p n
      let a ← if live then operate op a b else pure b
      binary live a limit n

/-- A number, a variable, an expression in parentheses, or one of these behind a sign. -/
def primary (live : Bool) : (fuel : Nat) → Reckon Int64
  | 0 => fail "expecting primary"
  | n + 1 => do
    match (← get).next with
    | .number v => advance; return v
    | .name name =>
      let v ← if live then lookup name else pure 0
      advance
      return v
    | .operator "(" =>
      advance
      let v ← whole live n
      if (← get).next != .operator ")" then fail "expecting ')'"
      advance
      return v
    | .operator "+" => advance; primary live n
    | .operator "-" => advance; return -(← primary live n)
    | .operator "!" => advance; return truth ((← primary live n) == 0)
    | .operator "~" => advance; return ~~~(← primary live n)
    | _ => fail "expecting primary"

end

end Reckon

/-- The value of an expression, and the assignments in it, the last one first. -/
def evaluate (value? : String → Option String) (isFixed : String → Bool) (text : String) :
    Except SumProblem (Int64 × List (String × Int64)) := do
  let (next, rest) := takeSymbol text.toList
  let fuel := 20 * (text.length + 2)
  let (v, r) ← (Reckon.whole true fuel).run { next, rest, value?, isFixed }
  if r.next != .finish then throw (.expression "expecting EOF")
  return (v, r.assigned)

end StackLang.Shell

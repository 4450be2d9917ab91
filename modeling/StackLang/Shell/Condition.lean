import StackLang.Shell.Session
import StackLang.Shell.Number

/-!
# Conditions

The command that tests conditions on texts, numbers and files.  Its arguments are an expression;
whether an argument is an operator can depend on the two that follow it.
-/

set_option autoImplicit false

namespace StackLang.Shell

/-- The kinds of operators in conditions. -/
inductive Connective where
  | one
  | two
  | not
  | and
  | or
  | opening
  | closing
  deriving DecidableEq, Repr

/-- The kind of an operator. -/
def connective? : String → Option Connective
  | "!" => some .not
  | "-a" => some .and
  | "-o" => some .or
  | "(" => some .opening
  | ")" => some .closing
  | s =>
    if ["-r", "-w", "-x", "-e", "-f", "-d", "-c", "-b", "-p", "-u", "-g", "-k", "-s", "-t", "-z",
        "-n", "-h", "-O", "-G", "-L", "-S"].contains s then some .one
    else if ["=", "!=", "<", ">", "-eq", "-ne", "-ge", "-gt", "-le", "-lt", "-nt", "-ot",
        "-ef"].contains s then some .two
    else none

/-- Testing a condition, given by the arguments left, unless it cannot be tested. -/
abbrev Testing := StateT (List String) (Except String)

/-- The operator at the start of arguments.  An operator for one operand that has none, or has an
operator for two behind it, is an operand itself. -/
def operatorAt : List String → Option Connective
  | [] => none
  | s :: rest =>
    match connective? s, rest with
    | some .one, [] => none
    | some .one, [_] => some .one
    | some .one, next :: _ => if connective? next = some .two then none else some .one
    | some .opening, [] => none
    | op, _ => op

/-- A number in a condition. -/
def numberIn (s : String) : Except String Int :=
  match decimal? s with
  | some n => .ok n
  | none => .error ("Illegal number: " ++ s)

/-- Whether a path passes a test. -/
def testPath (h : Host) (streams : Streams) (op path : String) : Bool :=
  match op, h.files.stat (Text.spelled path) with
  | "-t", _ => false
  | "-h", _ => false
  | "-L", _ => false
  | _, .error _ =>
    let isDevice := path == "/dev/null"
    isDevice && (op == "-e" || op == "-r" || op == "-w" || op == "-c") && !streams.isEmpty
  | "-d", .ok e => e == .dir
  | "-f", .ok e => e != .dir
  | "-s", .ok e =>
    match e with
    | .file content _ => !content.isEmpty
    | .dir => true
  | "-x", .ok e =>
    match e with
    | .file _ executable => executable
    | .dir => true
  | _, .ok _ => ["-e", "-r", "-w", "-O", "-G"].contains op

/-- The value of an operator with two operands. -/
def compare2 (h : Host) (a op b : String) : Except String Bool := do
  match op with
  | "=" => return a == b
  | "!=" => return a != b
  | "<" => return a < b
  | ">" => return b < a
  | "-eq" => return (← numberIn a) == (← numberIn b)
  | "-ne" => return (← numberIn a) != (← numberIn b)
  | "-ge" => return (← numberIn b) ≤ (← numberIn a)
  | "-gt" => return (← numberIn b) < (← numberIn a)
  | "-le" => return (← numberIn a) ≤ (← numberIn b)
  | "-lt" => return (← numberIn a) < (← numberIn b)
  | "-ef" =>
    let place (path : String) := (h.files.resolve (Text.spelled path)).toOption
    return (place a).isSome && place a == place b
  | _ => return false

namespace Testing

/-- Skip an argument. -/
def skip : Testing Unit := modify fun args => args.drop 1

mutual

/-- Conditions of which one is to hold. -/
def disjunction (h : Host) (streams : Streams) : (fuel : Nat) → Testing Bool
  | 0 => return false
  | n + 1 => do
    let a ← conjunction h streams n
    if operatorAt (← get) = some .or then
      skip
      let b ← disjunction h streams n
      return a || b
    return a

/-- Conditions which are all to hold. -/
def conjunction (h : Host) (streams : Streams) : (fuel : Nat) → Testing Bool
  | 0 => return false
  | n + 1 => do
    let a ← negation h streams n
    if operatorAt (← get) = some .and then
      skip
      let b ← conjunction h streams n
      return a && b
    return a

/-- A condition that may be negated. -/
def negation (h : Host) (streams : Streams) : (fuel : Nat) → Testing Bool
  | 0 => return false
  | n + 1 => do
    if operatorAt (← get) = some .not then
      skip
      return !(← negation h streams n)
    primary h streams n

/-- A single condition. -/
def primary (h : Host) (streams : Streams) : (fuel : Nat) → Testing Bool
  | 0 => return false
  | n + 1 => do
    let args ← get
    match operatorAt args, args with
    | _, [] => return false
    | some .opening, _ =>
      skip
      if operatorAt (← get) = some .closing then
        skip
        return false
      let v ← disjunction h streams n
      if operatorAt (← get) != some .closing then throw "closing paren expected"
      skip
      return v
    | some .one, op :: rest =>
      match rest with
      | [] => throw (op ++ ": argument expected")
      | s :: rest =>
        set rest
        match op with
        | "-z" => return s == ""
        | "-n" => return s != ""
        | "-t" => do
          let _ ← (numberIn s : Except String Int)
          return false
        | op => return testPath h streams op s
    | _, a :: rest =>
      if operatorAt rest = some .two then
        match rest with
        | op :: b :: rest =>
          set rest
          (compare2 h a op b : Except String Bool)
        | op :: [] => throw (op ++ ": argument expected")
        | [] => return a != ""
      else
        set rest
        return a != ""

end

end Testing

/-- Test a condition given by all its arguments.  If some are left over, the one before them is
complained about. -/
def testAll (h : Host) (streams : Streams) (args : List String) : Except String Bool := do
  let (v, rest) ← (Testing.disjunction h streams (4 * args.length + 8)).run args
  if rest.isEmpty then return v
  let last := (args.take (args.length - rest.length)).getLastD ""
  throw (if last == "" then "unexpected operator" else last ++ ": unexpected operator")

/-- Test a condition: with few arguments their number says what is meant. -/
def testCondition (h : Host) (streams : Streams) : (fuel : Nat) → List String →
    Except String Bool
  | 0, _ => .ok false
  | _, [] => .ok false
  | n + 1, args =>
    match args with
    | [a, op, b] =>
      if connective? op = some .two then compare2 h a op b
      else if a == "(" && b == ")" then testAll h streams [op]
      else if a == "!" then (testCondition h streams n [op, b]).map (!·)
      else testAll h streams args
    | [a, b, c, d] =>
      if a == "(" && d == ")" then testAll h streams [b, c]
      else if a == "!" then (testCondition h streams n [b, c, d]).map (!·)
      else testAll h streams args
    | args => testAll h streams args

end StackLang.Shell

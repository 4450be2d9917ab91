import StackLang.Literal
import StackLang.Text.Quoted
import StackLang.Text.Utf8

/-!
# Flags of a command line

A flag has a long name after two dashes and may have a letter after one.  A switch takes a value
only after an equals sign; any other flag takes the next argument if there is no equals sign.
Letters can be written together, the last of them with its value.  Flags and operands may be
mixed; two dashes alone end the flags.
-/

set_option autoImplicit false

namespace StackLang.Cli

/-- What the value of a flag is. -/
inductive FlagKind where
  | switch
  | text
  | number
  deriving DecidableEq, Repr

/-- A flag. -/
structure Flag where
  name : String
  letter : Option Char := none
  kind : FlagKind := .text
  deriving DecidableEq, Repr

/-- The value of a flag. -/
inductive FlagValue where
  | switch (on : Bool)
  | text (s : String)
  | number (n : Nat)
  deriving DecidableEq, Repr

/-- Why a value does not fit a flag. -/
inductive ValueProblem where
  | badSwitch
  | badNumber
  | bigNumber
  deriving DecidableEq, Repr

/-- What is wrong with the arguments. -/
inductive FlagError where
  | badForm (arg : String)
  | unknownName (name : String)
  | unknownLetter (letters : String)
  | noValue (arg : String)
  | noLetterValue (letters : String)
  | badValue (flag : Flag) (value : String) (problem : ValueProblem)
  deriving DecidableEq, Repr

namespace FlagError

/-- The first octet of some letters as a character. -/
def firstOctet (letters : String) : Char :=
  match Text.encode letters with
  | [] => '\x00'
  | b :: _ => Char.ofNat b.toNat

/-- What is wrong, in words. -/
def message : FlagError → String
  | badForm arg => "bad flag syntax: " ++ arg
  | unknownName name => "unknown flag: --" ++ name
  | unknownLetter letters =>
    "unknown shorthand flag: " ++ Text.quotedChar (firstOctet letters) ++ " in -" ++ letters
  | noValue arg => "flag needs an argument: " ++ arg
  | noLetterValue letters =>
    "flag needs an argument: " ++ Text.quotedChar (firstOctet letters) ++ " in -" ++ letters
  | badValue flag value problem =>
    let name := match flag.letter with
      | some c => "-" ++ String.singleton c ++ ", --" ++ flag.name
      | none => "--" ++ flag.name
    let reason := match problem with
      | .badSwitch => "strconv.ParseBool: parsing " ++ Text.quoted value ++ ": invalid syntax"
      | .badNumber => "strconv.ParseUint: parsing " ++ Text.quoted value ++ ": invalid syntax"
      | .bigNumber => "strconv.ParseUint: parsing " ++ Text.quoted value ++ ": value out of range"
    "invalid argument " ++ Text.quoted value ++ " for " ++ Text.quoted name ++ " flag: " ++ reason

end FlagError

/-! ## Values -/

/-- The value of a switch. -/
def switchValue? (s : String) : Option Bool :=
  if ["1", "t", "T", "TRUE", "true", "True"].contains s then some true
  else if ["0", "f", "F", "FALSE", "false", "False"].contains s then some false
  else none

/-- The value of a digit or letter. -/
def digitValue? (c : Char) : Option Nat :=
  if '0' ≤ c && c ≤ '9' then some (c.toNat - '0'.toNat)
  else
    let c := c.toLower
    if 'a' ≤ c && c ≤ 'z' then some (c.toNat - 'a'.toNat + 10) else none

/-- The base of a number by its first characters, and its digits. -/
def baseOf : List Char → Nat × List Char
  | '0' :: c :: d :: rest =>
    match c.toLower with
    | 'b' => (2, d :: rest)
    | 'o' => (8, d :: rest)
    | 'x' => (16, d :: rest)
    | _ => (8, c :: d :: rest)
  | '0' :: rest => (8, rest)
  | cs => (10, cs)

/-- What the last character of a number was, for the rule on underscores. -/
inductive Seen where
  | start
  | digit
  | underscore
  | other
  deriving DecidableEq

/-- Whether every underscore stands between digits. -/
def underscoresFit (hex : Bool) : Seen → List Char → Bool
  | seen, [] => seen != .underscore
  | seen, c :: rest =>
    if c.isDigit || (hex && 'a' ≤ c.toLower && c.toLower ≤ 'f') then
      underscoresFit hex .digit rest
    else if c == '_' then seen == .digit && underscoresFit hex .underscore rest
    else seen != .underscore && underscoresFit hex .other rest

/-- Whether the underscores of a number with its base in front stand between digits.  The base
counts as a digit. -/
def underscoresOk : List Char → Bool
  | '0' :: c :: rest =>
    match c.toLower with
    | 'x' => underscoresFit true .digit rest
    | 'b' | 'o' => underscoresFit false .digit rest
    | _ => underscoresFit false .start ('0' :: c :: rest)
  | cs => underscoresFit false .start cs

/-- Add digits to a number below 2^64. -/
def readDigits (base : Nat) : Nat → List Char → Except ValueProblem Nat
  | n, [] => .ok n
  | n, c :: rest =>
    if c == '_' then readDigits base n rest
    else
      match digitValue? c with
      | none => .error .badNumber
      | some d =>
        if base ≤ d then .error .badNumber
        else
          let n := n * base + d
          if n < UInt64.size then readDigits base n rest else .error .bigNumber

/-- A number below 2^64, in the base that its first characters say. -/
def readNumber (s : String) : Except ValueProblem Nat :=
  match s.toList with
  | [] => .error .badNumber
  | cs => do
    let (base, digits) := baseOf cs
    let n ← readDigits base 0 digits
    if digits.contains '_' && !underscoresOk cs then .error .badNumber else .ok n

namespace Flag

/-- The value of a flag. -/
def read (f : Flag) (s : String) : Except FlagError FlagValue :=
  match f.kind with
  | .text => .ok (.text s)
  | .switch =>
    match switchValue? s with
    | some b => .ok (.switch b)
    | none => .error (.badValue f s .badSwitch)
  | .number =>
    match readNumber s with
    | .ok n => .ok (.number n)
    | .error p => .error (.badValue f s p)

/-- Whether a flag does without a value. -/
def isSwitch (f : Flag) : Bool := f.kind == .switch

end Flag

/-- The flags of a command. -/
abbrev Flags := List Flag

/-- The flag with a name. -/
def Flags.named? (fs : Flags) (name : String) : Option Flag := fs.find? fun f => f.name == name

/-- The flag with a letter. -/
def Flags.lettered? (fs : Flags) (c : Char) : Option Flag := fs.find? fun f => f.letter == some c

/-! ## Arguments -/

/-- The flags that were given, the last one first, and the operands. -/
structure Given where
  values : List (String × FlagValue) := []
  operands : List String := []

namespace Given

/-- Whether a flag was given. -/
def has (g : Given) (name : String) : Bool := (g.values.lookup name).isSome

/-- The value of a switch. -/
def isOn (g : Given) (name : String) : Bool := g.values.lookup name == some (.switch true)

/-- The text of a flag, if it was given. -/
def text? (g : Given) (name : String) : Option String :=
  match g.values.lookup name with
  | some (.text s) => some s
  | _ => none

/-- The number of a flag, if it was given. -/
def number? (g : Given) (name : String) : Option Nat :=
  match g.values.lookup name with
  | some (.number n) => some n
  | _ => none

/-- Give a flag a value. -/
def set (g : Given) (f : Flag) (s : String) : Except FlagError Given := do
  let v ← f.read s
  return { g with values := (f.name, v) :: g.values }

/-- Add an operand. -/
def operand (g : Given) (s : String) : Given := { g with operands := g.operands ++ [s] }

end Given

/-- What an argument asks for after it has been read. -/
inductive Reading where
  | done (g : Given)
  /-- The next argument is the value of a flag; without one the arguments are wrong. -/
  | waiting (g : Given) (f : Flag) (otherwise : FlagError)

/-- Read the flag in an argument with two dashes. -/
def readLong (fs : Flags) (g : Given) (arg : String) : Except FlagError Reading := do
  let name := (arg.drop 2).toString
  if name.startsWith "-" || name.startsWith "=" then throw (.badForm arg)
  let key := String.ofList (name.toList.takeWhile (· != '='))
  match fs.named? key with
  | none => throw (.unknownName key)
  | some f =>
    match name.toList.dropWhile (· != '=') with
    | _ :: value => return .done (← g.set f (String.ofList value))
    | [] =>
      if f.isSwitch then return .done (← g.set f "true")
      else return .waiting g f (.noValue arg)

/-- How the flags of a test run start, which are somebody else's. -/
def testMark : List Char := "test.".toList

/-- Read the flags in an argument with one dash.  From the mark of a test run on, nothing is
read. -/
def readLetters (fs : Flags) (g : Given) : List Char → Except FlagError Reading
  | [] => .ok (.done g)
  | c :: rest => do
    if testMark.isPrefixOf (c :: rest) then return .done g
    match fs.lettered? c with
    | none => throw (.unknownLetter (String.ofList (c :: rest)))
    | some f =>
      match rest with
      | '=' :: d :: value => return .done (← g.set f (String.ofList (d :: value)))
      | [] =>
        if f.isSwitch then return .done (← g.set f "true")
        else return .waiting g f (.noLetterValue (String.singleton c))
      | _ =>
        if f.isSwitch then readLetters fs (← g.set f "true") rest
        else return .done (← g.set f (String.ofList rest))

/-- Whether an argument is an operand. -/
def isOperand (arg : String) : Bool := !arg.startsWith "-" || arg == "-"

/-- Read an argument that is neither an operand nor two dashes. -/
def readFlags (fs : Flags) (g : Given) (arg : String) : Except FlagError Reading :=
  if arg.startsWith "--" then readLong fs g arg else readLetters fs g (arg.drop 1).toString.toList

/-- Read arguments. -/
def readArgs (fs : Flags) (g : Given) : List String → Except FlagError Given
  | [] => .ok g
  | arg :: rest =>
    if isOperand arg then readArgs fs (g.operand arg) rest
    else if arg == "--" then .ok { g with operands := g.operands ++ rest }
    else
      match readFlags fs g arg with
      | .error e => .error e
      | .ok (.done g) => readArgs fs g rest
      | .ok (.waiting g f e) =>
        match rest with
        | [] => .error e
        | value :: rest =>
          match g.set f value with
          | .error e => .error e
          | .ok g => readArgs fs g rest

end StackLang.Cli

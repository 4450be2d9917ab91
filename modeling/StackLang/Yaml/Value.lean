import StackLang.Decimal.Notation
import StackLang.Text.Quoted
import StackLang.Yaml.Plain

/-!
# Values of no given type

What a node means by itself, when no record says which type is wanted.  Such values are needed for
the keys of mappings that take over the pairs of other mappings.
-/

set_option autoImplicit false

namespace StackLang.Yaml

/-- A value. -/
inductive Value where
  | null
  | bool (b : Bool)
  /-- An integer from −2^63 to 2^64 − 1. -/
  | int (n : Int)
  | float (x : Float)
  | date (text : String)
  | str (text : String)
  | seq (items : List Value)
  /-- A mapping.  `general` holds unless all its keys are strings. -/
  | map (general : Bool) (pairs : List (Value × Value))
  deriving Inhabited

namespace Value

/-- The value of a scalar with a meaning. -/
def ofMeaning (m : Meaning) (text : String) : Value :=
  match m with
  | .null => null
  | .bool b => bool b
  | .int n => int n
  | .float x => float x
  | .timestamp => date text
  | .str => str text

/-- Whether two scalars are the same key.  Sequences and mappings are never keys. -/
def sameKey : Value → Value → Bool
  | null, null => true
  | bool a, bool b => a == b
  | int a, int b => a == b
  | float a, float b => a == b
  | date a, date b => a == b
  | str a, str b => a == b
  | _, _ => false

/-- The name of a type of mappings in messages. -/
def mapType (general : Bool) : String :=
  if general then "map[interface \x7b\x7d]interface \x7b\x7d" else "map[string]interface \x7b\x7d"

/-- The name of the type of sequences in messages. -/
def seqType : String := "[]interface \x7b\x7d"

/-- The name of the type of a value that cannot be a key. -/
def compoundType? : Value → Option String
  | seq _ => some seqType
  | map general _ => some (mapType general)
  | _ => none

/-- Floats in messages. -/
def floatText (x : Float) : String :=
  (Decimal.nonFinite? x).getD ((Decimal.Notation.mk (-4) 6 2).finite x)

/-- An integer in messages: in hexadecimal if it is above the signed range. -/
def intText (n : Int) : String :=
  if 0x8000000000000000 ≤ n then "0x" ++ String.ofList (Text.hexDigits n.toNat 16) else toString n

mutual

/-- A value as messages show it. -/
def shown : Value → String
  | null => "interface \x7b\x7d(nil)"
  | bool b => if b then "true" else "false"
  | int n => intText n
  | float x => floatText x
  | date text => text
  | str text => Text.quoted text
  | seq items => seqType ++ "\x7b" ++ ", ".intercalate (shownAll items) ++ "\x7d"
  | map general pairs => mapType general ++ "\x7b" ++ ", ".intercalate (shownPairs pairs) ++ "\x7d"

/-- Each of some values. -/
def shownAll : List Value → List String
  | [] => []
  | v :: rest => v.shown :: shownAll rest

/-- Each of some pairs. -/
def shownPairs : List (Value × Value) → List String
  | [] => []
  | (k, v) :: rest => (k.shown ++ ":" ++ v.shown) :: shownPairs rest

end

end Value

end StackLang.Yaml

import StackLang.Op

/-!
# Log records

A record has a level, a message and named values.  Levels are whole numbers; four of them have
names, and the others are written as a distance from the next named one below.
-/

set_option autoImplicit false

namespace StackLang.Log

/-- A value in a record. -/
inductive Value where
  | str (s : String)
  | int (n : Int)
  | bool (b : Bool)
  | float (x : Float)
  | null
  | op (o : Op)
  | ints (xs : List Int64)
  /-- A list of texts, or no list at all. -/
  | strs (xs : Option (List String))

/-- The level of a record. -/
abbrev Level := Int

namespace Level

def trace : Level := -8

def debug : Level := -4

def info : Level := 0

def warn : Level := 4

def error : Level := 8

/-- A distance with its sign, unless it is 0. -/
def offset (n : Int) : String :=
  if n = 0 then "" else if 0 < n then "+" ++ toString n else toString n

/-- The name of a level. -/
def name (l : Level) : String :=
  if l < info then "DEBUG" ++ offset (l - debug)
  else if l < warn then "INFO" ++ offset (l - info)
  else if l < error then "WARN" ++ offset (l - warn)
  else "ERROR" ++ offset (l - error)

end Level

/-- A line of a log. -/
structure Record where
  level : Level
  message : String
  values : List (String × Value) := []

namespace Record

/-- A value without a name that is nothing is left out. -/
def isShown : String × Value → Bool
  | ("", .null) => false
  | _ => true

/-- The values that are written. -/
def shown (r : Record) : List (String × Value) := r.values.filter isShown

end Record

end StackLang.Log

import StackLang.Log.Record
import StackLang.Decimal.Notation
import StackLang.Text.Quoted
import StackLang.Text.Space

/-!
# Formats of a log

Records are written a line each, as words with equals signs or as JSON objects.  A log has a format
and a least level, below which records are dropped.
-/

set_option autoImplicit false

namespace StackLang.Log

/-! ## Words -/

/-- Whether a character makes a word need quotes. -/
def needsQuotes (c : Char) : Bool :=
  let n := c.toNat
  if n < 0x80 then n < 0x20 || c == ' ' || c == '"' || c == '='
  else n == 0xFFFD || Text.isSpace c || !Text.isPrintable c

/-- A word, quoted if it is empty or holds a character that needs it. -/
def word (s : String) : String :=
  if s.isEmpty || s.toList.any needsQuotes then Text.quoted s else s

/-- Numbers among words are written positionally from 0.0001 to below a million. -/
def wordNumbers : Decimal.Notation := ⟨-4, 6, 2⟩

/-- A list between brackets. -/
def bracketed (xs : List String) : String := "[" ++ " ".intercalate xs ++ "]"

/-- A value as a word. -/
def Value.toWord : Value → String
  | str s => word s
  | int n => toString n
  | bool b => if b then "true" else "false"
  | float x => (Decimal.nonFinite? x).getD (wordNumbers.finite x)
  | null => "<nil>"
  | op o => word o.name
  | ints xs => word (bracketed (xs.map toString))
  | strs xs => word (bracketed (xs.getD []))

/-- A record as words with equals signs. -/
def Record.toWords (r : Record) : String :=
  let head := "level=" ++ Level.name r.level ++ " msg=" ++ word r.message
  r.shown.foldl (fun line (k, v) => line ++ " " ++ word k ++ "=" ++ v.toWord) head ++ "\n"

/-! ## JSON -/

/-- A character of a JSON string. -/
def jsonChar (c : Char) : List Char :=
  match c.toNat with
  | 0x22 => ['\\', '"']
  | 0x5C => ['\\', '\\']
  | 0x08 => ['\\', 'b']
  | 0x0C => ['\\', 'f']
  | 0x0A => ['\\', 'n']
  | 0x0D => ['\\', 'r']
  | 0x09 => ['\\', 't']
  | n =>
    if n < 0x20 || n == 0x2028 || n == 0x2029 then '\\' :: 'u' :: Text.hexDigits n 4 else [c]

/-- A JSON string. -/
def jsonString (s : String) : String :=
  String.ofList ('"' :: s.toList.flatMap jsonChar ++ ['"'])

/-- Numbers in JSON are written positionally from 0.000001 to below 10^21. -/
def jsonNumbers : Decimal.Notation := ⟨-6, 21, 1⟩

/-- A JSON array. -/
def jsonArray (xs : List String) : String := "[" ++ ",".intercalate xs ++ "]"

/-- A value in JSON.  A number that is not finite has no form of its own there. -/
def Value.toJson : Value → String
  | str s => jsonString s
  | int n => toString n
  | bool b => if b then "true" else "false"
  | float x =>
    match Decimal.nonFinite? x with
    | some name => jsonString ("!ERROR:json: unsupported value: " ++ name)
    | none => jsonNumbers.finite x
  | null => "null"
  | op o => toString o.code
  | ints xs => jsonArray (xs.map toString)
  | strs none => "null"
  | strs (some xs) => jsonArray (xs.map jsonString)

/-- A record as a JSON object. -/
def Record.toJson (r : Record) : String :=
  let head := "\x7b\"level\":" ++ jsonString (Level.name r.level) ++ ",\"msg\":" ++
    jsonString r.message
  r.shown.foldl (fun line (k, v) => line ++ "," ++ jsonString k ++ ":" ++ v.toJson) head ++
    "\x7d\n"

/-! ## Logs -/

/-- How records are written. -/
inductive Format where
  | words
  | json
  deriving DecidableEq, Repr

/-- A place where records of a level and above are written. -/
structure Logger where
  least : Level := Level.info
  format : Format := .words
  deriving DecidableEq, Repr

/-- A record in a format. -/
def Format.line : Format → Record → String
  | words, r => r.toWords
  | json, r => r.toJson

/-- What a logger writes for records. -/
def Logger.write (l : Logger) (records : List Record) : String :=
  (records.filter fun r => l.least ≤ r.level).foldl (fun text r => text ++ l.format.line r) ""

end StackLang.Log

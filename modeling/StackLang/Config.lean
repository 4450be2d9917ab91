import StackLang.Error
import StackLang.Text.Case
import StackLang.Yaml.Text
import StackLang.Log.Format

/-!
# Configuration

The external programs that build native executables, and how the compiler logs.
-/

set_option autoImplicit false

namespace StackLang

/-- The settings. -/
structure Config where
  assembler : String := ""
  assemblerFlags : Option (List String) := none
  linker : String := ""
  linkerFlags : Option (List String) := none
  output : String := ""
  /-- Whether `DUPL` has its early meaning. -/
  duplIsDump : Bool := false
  logLevel : String := ""
  logFormat : String := ""
  deriving DecidableEq, Repr

namespace Config

/-- The settings used when none are given. -/
def standard : Config where
  assembler := "nasm"
  assemblerFlags := some ["-felf64"]
  linker := "ld"
  output := "output"
  logLevel := "info"
  logFormat := "text"

/-- An unknown name in a setting. -/
def unknown (what value : String) : Error :=
  .plain ("unknown " ++ what ++ " " ++ Text.quoted value) false

/-- The level with a name of four. -/
def namedLevel? (name : String) : Option Log.Level :=
  match Text.upperCase name with
  | "DEBUG" => some Log.Level.debug
  | "INFO" => some Log.Level.info
  | "WARN" => some Log.Level.warn
  | "ERROR" => some Log.Level.error
  | _ => none

/-- A level: a name, or a name and a distance from it.  The distance is a 64-bit number, and so is
the level. -/
def levelOfText? (s : String) : Option Log.Level :=
  let isSign (c : Char) : Bool := c == '+' || c == '-'
  let name := s.toList.takeWhile (fun c => !isSign c)
  let rest := s.toList.dropWhile fun c => !isSign c
  (namedLevel? (String.ofList name)).bind fun base =>
    if rest.isEmpty then some base
    else (Literal.read? rest).map fun n => (base + n.toInt).bmod UInt64.size

/-- The level that a setting names; none is the level of information. -/
def parseLevel (s : String) : Except Error Log.Level :=
  match Text.lowerCase s with
  | "trace" => .ok Log.Level.trace
  | "" | "info" => .ok Log.Level.info
  | _ =>
    match levelOfText? s with
    | some l => .ok l
    | none => .error (unknown "log level" s)

/-- The format that a setting names; none is the format of words. -/
def parseFormat (s : String) : Except Error Log.Format :=
  match s with
  | "" | "text" => .ok .words
  | "json" => .ok .json
  | _ => .error (unknown "log format" s)

/-- Check that the settings can be used. -/
def validate (c : Config) : Except Error Unit := do
  if c.assembler == "" then throw (.plain "assembler must not be empty" false)
  if c.linker == "" then throw (.plain "linker must not be empty" false)
  if c.output == "" then throw (.plain "output must not be empty" false)
  let _ ← parseLevel c.logLevel
  let _ ← parseFormat c.logFormat

/-- The logger of the settings. -/
def logger (c : Config) : Except Error Log.Logger := do
  let least ← parseLevel c.logLevel
  let format ← parseFormat c.logFormat
  return { least, format }

/-- The keys of the settings. -/
def record : Yaml.Record Config :=
  { type := "config.Config",
    fields := [
      .of "assembler" Yaml.readString fun c v => { c with assembler := v },
      .of "assembler_flags" (Yaml.readList "[]string" Yaml.readString)
        fun c v => { c with assemblerFlags := v },
      .of "linker" Yaml.readString fun c v => { c with linker := v },
      .of "linker_flags" (Yaml.readList "[]string" Yaml.readString)
        fun c v => { c with linkerFlags := v },
      .of "output" Yaml.readString fun c v => { c with output := v },
      .of "compat_dupl_as_dump" Yaml.readBool fun c v => { c with duplIsDump := v },
      .of "log_level" Yaml.readString fun c v => { c with logLevel := v },
      .of "log_format" Yaml.readString fun c v => { c with logFormat := v }] }

/-- The settings of a file, on top of the standard ones. -/
def load (files : Files) (path : String) : Except Error Config := do
  let entry ← (files.openFile path).mapError .file
  let octets ← (Files.content path entry).mapError fun e =>
    .under path (.under "yaml: input error" (.file e))
  let c ← match record.decodeText standard octets with
    | .ok c => .ok c
    | .error .endOfInput => .ok standard
    | .error e => .error (Error.under path e)
  match c.validate with
  | .ok () => return c
  | .error e => .error (Error.under path e)

end Config

end StackLang

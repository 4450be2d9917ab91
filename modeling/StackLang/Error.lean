import StackLang.Vocabulary
import StackLang.Link
import StackLang.Machine
import StackLang.Lint
import StackLang.Files
import StackLang.Text.Space
import StackLang.Yaml.Decode

/-!
# Errors

Everything that can go wrong, by its cause.  An error can be put into the context of what was being
done; the message of the whole is the context, a colon and the message of the cause.  Some errors
are traced: they remember where in the program they arose, which a detailed message shows.
-/

set_option autoImplicit false

namespace StackLang

/-- An external program that could not be started, or that ended with a status other than 0. -/
structure ToolError where
  tool : String
  args : List String := []
  /-- The exit status; a negative one says that the program did not end on its own. -/
  exit : Int := -1
  stderr : String := ""
  /-- The words of the system for what happened. -/
  cause : Option String := none
  deriving DecidableEq, Repr

/-- The command line, how it ended, and what it wrote to its error output. -/
def ToolError.message (e : ToolError) : String :=
  let command := e.tool ++ " " ++ " ".intercalate e.args
  let ended :=
    if 0 ≤ e.exit then command ++ ": exit status " ++ toString e.exit
    else
      match e.cause with
      | some cause => command ++ ": " ++ cause
      | none => command
  let stderr := Text.trimString e.stderr
  if stderr == "" then ended else ended ++ "\n" ++ stderr

/-- A request that cannot be carried out, after which nothing goes on. -/
inductive Misuse where
  /-- The name of a component breaks the naming rules. -/
  | badName (name reason : String)
  /-- An index of a name is missing altogether. -/
  | noIndex
  /-- A core without an engine. -/
  | noEngine
  /-- An event at no time at all. -/
  | noTime
  /-- An event before the time that has been reached. -/
  | past
  /-- An event whose turn comes at a later time than its own. -/
  | late (time now : String)
  /-- A core that is not there. -/
  | noCore
  /-- A key that is a sequence or a mapping, where keys are compared. -/
  | compoundKey (type : String)
  /-- A field of a record that is a null. -/
  | nullRecord
  deriving DecidableEq, Repr

/-- The misuse in words. -/
def Misuse.message : Misuse → String
  | badName name reason => "Name " ++ name ++ " is not valid: " ++ reason
  | noEngine => "core builder requires an engine"
  | noTime => "invalid time"
  | noIndex => "interface conversion: interface \x7b\x7d is runtime.boundsError, not string"
  | past => "scheduling an event earlier than current time"
  | late time now =>
    "cannot run event in the past, evt sim.TickEvent @ " ++ time ++ ", now " ++ now
  | noCore => "runtime error: invalid memory address or nil pointer dereference"
  | compoundKey type => "runtime error: hash of unhashable type " ++ type
  | nullRecord => "reflect: call of reflect.Value.Type on zero Value"

/-- An error, by its cause. -/
inductive Error where
  | unknownWord (e : UnknownWord)
  | structural (e : StructureError)
  | alreadyLinked
  | unlinked
  | fault (f : Fault)
  | stepLimit
  | issue (i : Issue)
  /-- Several errors at once. -/
  | several (errors : List Error)
  /-- Values of a YAML document that do not fit. -/
  | yamlProblems (problems : List Yaml.Problem)
  /-- A text that is no YAML document. -/
  | yamlMalformed
  /-- A text without a document. -/
  | endOfInput
  | file (e : FileError)
  | tool (e : ToolError)
  | misuse (m : Misuse)
  /-- An error that is only words. -/
  | plain (message : String) (traced : Bool)
  /-- An error in the context of what was being done. -/
  | within (context : String) (cause : Error) (traced : Bool)
  deriving Repr

namespace Error

/-- Errors as a list with its length. -/
def listMessage (messages : List String) : String :=
  match messages with
  | [one] => "1 error occurred:\n\t* " ++ one ++ "\n\n"
  | many =>
    toString many.length ++ " errors occurred:\n\t" ++
      "\n\t".intercalate (many.map ("* " ++ ·)) ++ "\n\n"

mutual

/-- The words of an error. -/
def message : Error → String
  | unknownWord e => e.message
  | structural e => e.message
  | alreadyLinked => "program is already resolved"
  | unlinked => "program has not been resolved"
  | fault f => f.message
  | stepLimit => "step limit exceeded"
  | issue i => i.message
  | several errors => listMessage (messages errors)
  | yamlProblems problems =>
    "yaml: unmarshal errors:\n  " ++ "\n  ".intercalate (problems.map Yaml.Problem.message)
  | yamlMalformed => "yaml: malformed document"
  | endOfInput => "EOF"
  | file e => e.message
  | tool e => e.message
  | misuse m => m.message
  | plain message _ => message
  | within context cause _ => context ++ ": " ++ cause.message

/-- The words of each error. -/
def messages : List Error → List String
  | [] => []
  | e :: rest => e.message :: messages rest

end

mutual

/-- The words of an error for a reader: several errors are numbered, one alone is not. -/
def short : Error → String
  | several [] => "0 errors occurred:"
  | several [e] => e.short
  | several (e :: f :: rest) =>
    toString (rest.length + 2) ++ " errors occurred:" ++ numbered 1 (e :: f :: rest)
  | e => e.message

/-- Errors on lines of their own, numbered from `n`. -/
def numbered (n : Nat) : List Error → String
  | [] => ""
  | e :: rest => "\n    " ++ toString n ++ ") " ++ e.short ++ numbered (n + 1) rest

end

/-- Whether the error remembers where it arose. -/
def isTraced : Error → Bool
  | plain _ traced => traced
  | within _ _ traced => traced
  | _ => false

/-- The cause under all contexts that are traced. -/
def root : Error → Error
  | within _ cause true => cause.root
  | e => e

/-- The words of an error for a reader who looks for its origin.  Where the error is traced the
places follow; of these no text is kept. -/
def detailed (e : Error) : String :=
  if e.isTraced then
    match e with
    | within _ _ _ =>
      if e.root.isTraced then e.short ++ "\n\nCAUSED BY...\n" else e.short ++ "\n"
    | _ => e.short ++ "\n"
  else e.short

/-- The error without its contexts. -/
def innermost : Error → Error
  | within _ cause _ => cause.innermost
  | e => e

/-- An error in a context, untraced.  A misuse has no context. -/
def under (context : String) (e : Error) : Error :=
  match e with
  | misuse m => misuse m
  | e => within context e false

/-- An error in a context, traced. -/
def wrapped (context : String) (e : Error) : Error := within context e true

end Error

end StackLang

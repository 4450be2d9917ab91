import StackLang.Error
import StackLang.Listing
import StackLang.Files

/-!
# Loading programs

From source text or a listing, given as text or as a file, to a program.
-/

set_option autoImplicit false

namespace StackLang

namespace Token

/-- The tokens of a text that could be read, or the reason it could not. -/
def scanRead (file : String) (input : Except Error (List UInt8)) : Except Error (List Token) :=
  match input with
  | .ok octets => .ok (scan file octets)
  | .error e => .error (.under ("reading " ++ file) e)

/-- The tokens of a file. -/
def scanFile (files : Files) (path : String) : Except Error (List Token) :=
  match files.openFile path with
  | .error e => .error (.file e)
  | .ok entry => scanRead path ((Files.content path entry).mapError .file)

end Token

namespace Program

/-- The error of a failed link. -/
def linkError : LinkError → Error
  | .alreadyLinked => .alreadyLinked
  | .structural e => .structural e

/-- The linked program of tokens that are named after `file`. -/
def ofTokensLinked (file : String) (v : Vocabulary) (tokens : List Token) :
    Except Error Program := do
  let p ← (ofTokens v tokens).mapError .unknownWord
  match link { p with source := file } with
  | (p, none) => .ok p
  | (_, some e) => .error (.under file (linkError e))

/-- The linked program of a source text. -/
def load (file : String) (v : Vocabulary) (octets : List UInt8) : Except Error Program :=
  ofTokensLinked file v (Token.scan file octets)

/-- The linked program of a source file. -/
def loadFile (files : Files) (v : Vocabulary) (path : String) : Except Error Program := do
  let tokens ← Token.scanFile files path
  ofTokensLinked path v tokens

/-- The program of a listing in a file.  Its source is the file unless the listing names one. -/
def loadListing (files : Files) (path : String) : Except Error Program := do
  let entry ← (files.openFile path).mapError .file
  let p ← match Files.content path entry with
    | .error e =>
      .error (.under path (.under "decoding listing" (.under "yaml: input error" (.file e))))
    | .ok octets => (Listing.ofYaml octets).mapError (.under path)
  return if p.source == "" then { p with source := path } else p

end Program

end StackLang

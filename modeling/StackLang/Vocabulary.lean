import StackLang.Program
import StackLang.Token
import StackLang.Literal
import StackLang.Text.Quoted

/-!
# Vocabularies

A vocabulary gives the words of the source language their operations.  A token that is no word of
the vocabulary has to be an integer literal, which is pushed.
-/

set_option autoImplicit false

namespace StackLang

/-- Named words and the operations they stand for. -/
structure Vocabulary where
  name : String
  words : List (String × Op) := []

namespace Vocabulary

/-- The operation of a word. -/
def find? (v : Vocabulary) (word : String) : Option Op :=
  (v.words.find? fun w => w.1 == word).map Prod.snd

/-- The number of words. -/
def size (v : Vocabulary) : Nat := v.words.length

/-- The words that every vocabulary of the language has. -/
def commonWords : List (String × Op) :=
  [("+", .plus), ("-", .minus), ("=?", .equal), (">", .greater), ("TRUE", .pushTrue),
    ("FALSE", .pushFalse), ("IF", .branch), ("ELSE", .otherwise), ("END", .close),
    ("WHILE", .loop), ("DO", .body), ("MEMORY", .mem), ("DUMP", .dump)]

/-- The vocabulary of the language. -/
def standard : Vocabulary := ⟨"Tungsten", commonWords ++ [("DUPL", .dupl)]⟩

/-- The vocabulary of the first releases, where `DUPL` wrote the topmost entry. -/
def early : Vocabulary := ⟨"Tungsten (compat)", commonWords ++ [("DUPL", .dump)]⟩

/-- The vocabulary to use, by whether `DUPL` has its early meaning. -/
def choose (duplIsDump : Bool) : Vocabulary := if duplIsDump then early else standard

end Vocabulary

/-- A token that is neither a word nor a literal. -/
structure UnknownWord where
  token : Token
  deriving DecidableEq, Repr, Inhabited

/-- Where the word stands, and the word. -/
def UnknownWord.message (e : UnknownWord) : String :=
  e.token.file ++ ":" ++ toString e.token.line ++ ":" ++ toString e.token.col ++
    ": unknown word " ++ Text.quoted e.token.text

/-- The instruction of one token.  Jumps are left at 0. -/
def Instr.ofToken (v : Vocabulary) (t : Token) : Except UnknownWord Instr :=
  match v.find? t.text with
  | some op => .ok { op := op }
  | none =>
    match Literal.readString? t.text with
    | some n => .ok { op := .push, imm := n }
    | none => .error ⟨t⟩

/-- The unlinked program of a sequence of tokens.  Its source is the file of the first token. -/
def Program.ofTokens (v : Vocabulary) (tokens : List Token) : Except UnknownWord Program := do
  let code ← tokens.mapM (Instr.ofToken v)
  return { source := (tokens.head?.map Token.file).getD "", code := code.toArray }

end StackLang

import StackLang.Text.Space
import StackLang.Text.Utf8

/-!
# Tokens

A source text is split into lines, and a `//` ends its line.  What is left of a line is read as
UTF-8 and its tokens are the maximal runs without white space.  A token knows its line and the
column of its first character, both counted from 1.
-/

set_option autoImplicit false

namespace StackLang

/-- A word of a source text with its position. -/
structure Token where
  file : String
  line : Int
  col : Int
  text : String
  deriving DecidableEq, Repr, Inhabited

namespace Token

/-- The position of a token and its word, as messages show them. -/
def toText (t : Token) : String :=
  t.file ++ ":" ++ toString t.line ++ ":" ++ toString t.col ++ ": " ++ t.text

/-- The pieces between line feeds.  A final piece that is empty is no line. -/
def lines (octets : List UInt8) : List (List UInt8) :=
  go [] octets
where
  /-- `line` holds, reversed, what has been read of the current line. -/
  go (line : List UInt8) : List UInt8 → List (List UInt8)
    | [] => if line.isEmpty then [] else [line.reverse]
    | b :: rest => if b = 0x0A then line.reverse :: go [] rest else go (b :: line) rest

/-- A line up to its first `//`. -/
def cutComment : List UInt8 → List UInt8
  | [] => []
  | [b] => [b]
  | a :: b :: rest => if a = 0x2F ∧ b = 0x2F then [] else a :: cutComment (b :: rest)

/-- The maximal runs without white space of a line that starts at column `col`, each with the
column of its first character. -/
def runs (col : Nat) (cs : List Char) : List (Nat × List Char) :=
  match _hcs : cs.dropWhile Text.isSpace with
  | [] => []
  | c :: rest =>
    let start := col + (cs.takeWhile Text.isSpace).length
    let word := c :: rest.takeWhile (fun x => !Text.isSpace x)
    (start, word) :: runs (start + word.length) (rest.dropWhile fun x => !Text.isSpace x)
termination_by cs.length
decreasing_by
  have h₁ : (cs.dropWhile Text.isSpace).length ≤ cs.length := (List.dropWhile_suffix _).length_le
  have h₂ : (rest.dropWhile fun x => !Text.isSpace x).length ≤ rest.length :=
    (List.dropWhile_suffix _).length_le
  rw [_hcs, List.length_cons] at h₁
  omega

/-- The tokens of one line. -/
def ofLine (file : String) (line : Nat) (octets : List UInt8) : List Token :=
  (runs 1 (Text.decode (cutComment octets))).map fun (col, word) =>
    ⟨file, (line : Int), (col : Int), String.ofList word⟩

/-- The tokens of lines numbered from `first`. -/
def ofLines (file : String) (first : Nat) : List (List UInt8) → List Token
  | [] => []
  | l :: rest => ofLine file first l ++ ofLines file (first + 1) rest

/-- The tokens of a source text. -/
def scan (file : String) (octets : List UInt8) : List Token :=
  ofLines file 1 (lines octets)

end Token

end StackLang

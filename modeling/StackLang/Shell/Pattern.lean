/-!
# Patterns

A pattern is a text in which a question mark stands for any octet, an asterisk for any number of
them, and brackets for one of a set.  A backslash takes the meaning of the next character.
-/

set_option autoImplicit false

namespace StackLang.Shell

/-- The octets that brackets stand for. -/
structure OctetSet where
  inverted : Bool
  ranges : List (Char × Char) := []
  classes : List String := []
  deriving DecidableEq, Repr

/-- An element of a pattern. -/
inductive Glob where
  | char (c : Char)
  | any
  | star
  | set (s : OctetSet)
  deriving DecidableEq, Repr

/-- The names of classes of octets. -/
def classNames : List String :=
  ["alnum", "alpha", "blank", "cntrl", "digit", "graph", "lower", "print", "punct", "space",
    "upper", "xdigit"]

/-- Whether an octet is in a class. -/
def inClass (c : Char) : String → Bool
  | "alnum" => c.isAlphanum
  | "alpha" => c.isAlpha
  | "blank" => c == ' ' || c == '\t'
  | "cntrl" => c.val < 0x20 || c.val == 0x7F
  | "digit" => c.isDigit
  | "graph" => 0x20 < c.val && c.val < 0x7F
  | "lower" => c.isLower
  | "print" => 0x20 ≤ c.val && c.val < 0x7F
  | "punct" => 0x20 < c.val && c.val < 0x7F && !c.isAlphanum
  | "space" => c == ' ' || ('\t' ≤ c && c ≤ '\r')
  | "upper" => c.isUpper
  | "xdigit" => c.isDigit || ('a' ≤ c && c ≤ 'f') || ('A' ≤ c && c ≤ 'F')
  | _ => false

/-- Whether an octet is in a set. -/
def OctetSet.contains (s : OctetSet) (c : Char) : Bool :=
  (s.ranges.any (fun (lo, hi) => lo ≤ c && c ≤ hi) || s.classes.any (inClass c)) != s.inverted

/-- The name of a class at the start of a text behind a bracket, and the rest. -/
def className? (cs : List Char) : Option (String × List Char) :=
  classNames.findSome? fun name =>
    let written := ':' :: name.toList ++ [':', ']']
    if written.isPrefixOf cs then some (name, cs.drop written.length) else none

/-- The elements of a set up to its closing bracket, and the rest of the pattern.  There are none
if the bracket does not close.  The first element may be a closing bracket. -/
def takeSet (s : OctetSet) (first : Bool) : (fuel : Nat) → List Char →
    Option (OctetSet × List Char)
  | 0, _ => none
  | _, [] => none
  | n + 1, c :: rest =>
    if c == ']' && !first then some (s, rest)
    else
      match if c == '[' then className? rest else none with
      | some (name, rest) => takeSet { s with classes := name :: s.classes } false n rest
      | none =>
        let (c, rest) := match c, rest with
          | '\\', d :: rest => (d, rest)
          | c, rest => (c, rest)
        match rest with
        | '-' :: ']' :: _ => takeSet { s with ranges := (c, c) :: s.ranges } false n rest
        | '-' :: '\\' :: hi :: rest =>
          takeSet { s with ranges := (c, hi) :: s.ranges } false n rest
        | '-' :: hi :: rest => takeSet { s with ranges := (c, hi) :: s.ranges } false n rest
        | rest => takeSet { s with ranges := (c, c) :: s.ranges } false n rest

/-- A set behind its opening bracket, and the rest of the pattern. -/
def takeBrackets (cs : List Char) : Option (OctetSet × List Char) :=
  match cs with
  | '!' :: rest => takeSet { inverted := true } true (rest.length + 1) rest
  | cs => takeSet { inverted := false } true (cs.length + 1) cs

/-- The elements of a pattern. -/
def globs : (fuel : Nat) → List Char → List Glob
  | 0, _ => []
  | _, [] => []
  | n + 1, c :: rest =>
    match c, rest with
    | '\\', d :: rest => .char d :: globs n rest
    | '?', rest => .any :: globs n rest
    | '*', rest => .star :: globs n rest
    | '[', rest =>
      match takeBrackets rest with
      | some (s, rest) => .set s :: globs n rest
      | none => .char '[' :: globs n rest
    | c, rest => .char c :: globs n rest

/-- The texts that are left when characters are taken from the front, the whole text first. -/
def suffixes : List Char → List (List Char)
  | [] => [[]]
  | c :: rest => (c :: rest) :: suffixes rest

/-- Whether elements of a pattern match a text as a whole. -/
def Glob.matchAll : List Glob → List Char → Bool
  | [], cs => cs.isEmpty
  | .star :: gs, cs => (suffixes cs).any (matchAll gs)
  | .any :: gs, cs =>
    match cs with
    | [] => false
    | _ :: rest => matchAll gs rest
  | .char c :: gs, cs =>
    match cs with
    | [] => false
    | d :: rest => c == d && matchAll gs rest
  | .set s :: gs, cs =>
    match cs with
    | [] => false
    | d :: rest => s.contains d && matchAll gs rest

/-- Whether a pattern matches a text as a whole. -/
def isMatch (pattern text : List Char) : Bool :=
  Glob.matchAll (globs pattern.length pattern) text

/-- Whether a text has a meaning as a pattern. -/
def hasMeta (pattern : List Char) : Bool :=
  (globs pattern.length pattern).any fun g =>
    match g with
    | .char _ => false
    | _ => true

/-- A text without the backslashes that take the meaning of characters. -/
def unguarded : List Char → List Char
  | '\\' :: c :: rest => c :: unguarded rest
  | c :: rest => c :: unguarded rest
  | [] => []

/-- A character as a pattern that only matches itself. -/
def guarded (c : Char) : List Char := ['\\', c]

/-! ## Ends of texts -/

/-- A text without the shortest or longest match of a pattern at its start. -/
def trimStart (longest : Bool) (pattern text : List Char) : List Char :=
  let cuts := List.range (text.length + 1)
  let cuts := if longest then cuts.reverse else cuts
  match cuts.find? fun k => isMatch pattern (text.take k) with
  | some k => text.drop k
  | none => text

/-- A text without the shortest or longest match of a pattern at its end. -/
def trimEnd (longest : Bool) (pattern text : List Char) : List Char :=
  let cuts := List.range (text.length + 1)
  let cuts := if longest then cuts else cuts.reverse
  match cuts.find? fun k => isMatch pattern (text.drop k) with
  | some k => text.take k
  | none => text

end StackLang.Shell

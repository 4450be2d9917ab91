/-!
# White space

The code points with the Unicode property `White_Space`.  They separate the words of a source
text, and are what trimming removes.
-/

set_option autoImplicit false

namespace StackLang.Text

/-- White space: tab to carriage return, the space, next line, no-break space, and the space,
line and paragraph separators. -/
def isSpace (c : Char) : Bool :=
  let n := c.toNat
  (0x09 ≤ n && n ≤ 0x0D) || n == 0x20 || n == 0x85 || n == 0xA0 || n == 0x1680 ||
    (0x2000 ≤ n && n ≤ 0x200A) || n == 0x2028 || n == 0x2029 || n == 0x202F || n == 0x205F ||
    n == 0x3000

/-- `s` without white space at either end. -/
def trim (s : List Char) : List Char :=
  ((s.dropWhile isSpace).reverse.dropWhile isSpace).reverse

/-- `s` without white space at either end. -/
def trimString (s : String) : String :=
  String.ofList (trim s.toList)

/-- The maximal runs of `cs` without white space, in order.  `word` holds, reversed, what has been
read of the current run. -/
def fieldsFrom (word : List Char) : List Char → List (List Char)
  | [] => if word.isEmpty then [] else [word.reverse]
  | c :: cs =>
    if isSpace c then
      if word.isEmpty then fieldsFrom [] cs else word.reverse :: fieldsFrom [] cs
    else fieldsFrom (c :: word) cs

/-- The words of `s`: its maximal runs without white space. -/
def fields (s : String) : List String :=
  (fieldsFrom [] s.toList).map String.ofList

end StackLang.Text

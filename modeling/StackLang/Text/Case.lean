/-!
# Upper and lower case

The case of letters as far as it leads into ASCII or to a letter of another length in UTF-8.  All
other letters outside ASCII stay as they are.
-/

set_option autoImplicit false

namespace StackLang.Text

/-- Letters outside ASCII whose lower case is in ASCII or has another length in UTF-8, with that
lower case. -/
def lowerPairs : List (Nat × Nat) := [
  (0x130, 0x69), (0x23A, 0x2C65), (0x23E, 0x2C66), (0x1E9E, 0xDF), (0x2126, 0x3C9), (0x212A, 0x6B),
  (0x212B, 0xE5), (0x2C62, 0x26B), (0x2C64, 0x27D), (0x2C6D, 0x251), (0x2C6E, 0x271),
  (0x2C6F, 0x250), (0x2C70, 0x252), (0x2C7E, 0x23F), (0x2C7F, 0x240), (0xA78D, 0x265),
  (0xA7AA, 0x266), (0xA7AB, 0x25C), (0xA7AC, 0x261), (0xA7AD, 0x26C), (0xA7AE, 0x26A),
  (0xA7B0, 0x29E), (0xA7B1, 0x287), (0xA7B2, 0x29D), (0xA7C5, 0x282), (0xA7CB, 0x264),
  (0xA7DC, 0x19B)]

/-- The lower case of a letter. -/
def lowerChar (c : Char) : Char :=
  match lowerPairs.lookup c.toNat with
  | some n => Char.ofNat n
  | none => c.toLower

/-- The upper case of a letter, if it is in ASCII.  Of the other letters, the dotless i and the
long s are among them. -/
def upperChar (c : Char) : Char :=
  if c.toNat == 0x131 then 'I' else if c.toNat == 0x17F then 'S' else c.toUpper

/-- A text in lower case. -/
def lowerCase (s : String) : String := String.ofList (s.toList.map lowerChar)

/-- A text in upper case. -/
def upperCase (s : String) : String := String.ofList (s.toList.map upperChar)

end StackLang.Text

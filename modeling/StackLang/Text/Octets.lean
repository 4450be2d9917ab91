import StackLang.Text.Utf8

/-!
# Octets as characters

Programs of the system work on octets and do not know characters.  A text of octets is a string
with one character below U+0100 for each octet.
-/

set_option autoImplicit false

namespace StackLang.Text

/-- Whether all characters of a text are their own octets. -/
def isAscii (s : String) : Bool := s.toList.all fun c => c.val < 0x80

/-- Octets as a text, one character for each. -/
def ofOctets (octets : List UInt8) : String :=
  String.ofList (octets.map fun b => Char.ofNat b.toNat)

/-- The octets of a text of octets. -/
def toOctets (s : String) : List UInt8 := s.toList.map fun c => c.toNat.toUInt8

/-- The octets of a text, one character for each. -/
def octets (s : String) : String := if isAscii s then s else ofOctets (encode s)

/-- The text that octets spell. -/
def spelled (s : String) : String := if isAscii s then s else decodeString (toOctets s)

end StackLang.Text

/-!
# Reading UTF-8

`decode` reads octets as UTF-8.  An octet that neither is nor begins a well-formed sequence stands
for U+FFFD, and reading goes on with the next octet, so no input is refused.
-/

set_option autoImplicit false

namespace StackLang.Text

/-- What stands for an octet that is not part of UTF-8. -/
def replacement : Char := '�'

/-- A continuation octet of a sequence. -/
def isContinuation (b : UInt8) : Bool :=
  0x80 ≤ b && b ≤ 0xBF

/-- The lower six bits of a continuation octet. -/
def payload (b : UInt8) : Nat :=
  b.toNat % 0x40

/-- The character that two octets encode, if they do. -/
def decodeTwo? (a b : UInt8) : Option Char :=
  if 0xC2 ≤ a && a ≤ 0xDF && isContinuation b then
    some (Char.ofNat (a.toNat % 0x20 * 0x40 + payload b))
  else none

/-- The character that three octets encode, if they do.  Overlong forms and surrogates are
excluded by the range of the second octet. -/
def decodeThree? (a b c : UInt8) : Option Char :=
  if 0xE0 ≤ a && a ≤ 0xEF && isContinuation b && isContinuation c &&
      !(a == 0xE0 && b < 0xA0) && !(a == 0xED && b > 0x9F) then
    some (Char.ofNat (a.toNat % 0x10 * 0x1000 + payload b * 0x40 + payload c))
  else none

/-- The character that four octets encode, if they do.  Overlong forms and values above U+10FFFF
are excluded by the range of the second octet. -/
def decodeFour? (a b c d : UInt8) : Option Char :=
  if 0xF0 ≤ a && a ≤ 0xF4 && isContinuation b && isContinuation c && isContinuation d &&
      !(a == 0xF0 && b < 0x90) && !(a == 0xF4 && b > 0x8F) then
    some (Char.ofNat
      (a.toNat % 0x08 * 0x40000 + payload b * 0x1000 + payload c * 0x40 + payload d))
  else none

/-- The first character of a nonempty sequence of octets, and how many octets after the first it
takes. -/
def decodeHead (a : UInt8) (rest : List UInt8) : Char × Nat :=
  if a < 0x80 then (Char.ofNat a.toNat, 0)
  else
    match rest with
    | [] => (replacement, 0)
    | b :: rest₁ =>
      match decodeTwo? a b with
      | some c => (c, 1)
      | none =>
        match rest₁ with
        | [] => (replacement, 0)
        | c :: rest₂ =>
          match decodeThree? a b c with
          | some ch => (ch, 2)
          | none =>
            match rest₂ with
            | [] => (replacement, 0)
            | d :: _ =>
              match decodeFour? a b c d with
              | some ch => (ch, 3)
              | none => (replacement, 0)

/-- The characters of a sequence of octets. -/
def decode : List UInt8 → List Char
  | [] => []
  | a :: rest =>
    let (c, more) := decodeHead a rest
    c :: decode (rest.drop more)
termination_by octets => octets.length
decreasing_by simp only [List.length_drop, List.length_cons]; omega

/-- The octets of a text. -/
def encode (s : String) : List UInt8 :=
  s.toUTF8.toList

/-- A text stands for its octets where octets are meant. -/
instance coeOctets : Coe String (List UInt8) := ⟨encode⟩

/-- The text that a sequence of octets stands for. -/
def decodeString (octets : List UInt8) : String :=
  String.ofList (decode octets)

/-- The first `n` octets of `s`, read as text: a character that the cut divides leaves one U+FFFD
for each octet that is kept of it. -/
def takeOctets (s : String) (n : Nat) : String :=
  decodeString ((encode s).take n)

end StackLang.Text

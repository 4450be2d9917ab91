import StackLang.Text.Utf8

/-!
# Writers

Where output goes.  A writer is asked to take a text.  It is left as it then is, and either has
taken the text or says why not, in words of its own: how much of the text it has kept in that case,
and whether it takes the next one, is up to it.

A sink is a writer that either takes everything, keeping it or not, or has room for a number of
octets and fails at the write that exceeds it, having taken what still fits.
-/

set_option autoImplicit false

namespace StackLang

/-- A kind of writers, with the errors of those that do not take a text. -/
class Writer (σ : Type) (ε : outParam Type) where
  /-- The writer after it was given a text, and its error if it did not take it. -/
  write : σ → String → σ × Option ε

/-- A place for output. -/
inductive Sink where
  /-- Takes and forgets everything. -/
  | discard
  /-- Keeps everything written. -/
  | buffer (text : String)
  /-- Keeps what is written, with room for `room` more octets. -/
  | limited (text : String) (room : Nat)
  deriving DecidableEq, Repr, Inhabited

namespace Sink

/-- Why a sink does not take a text. -/
inductive Refusal where
  /-- There is no room for all of it. -/
  | full
  deriving DecidableEq, Repr

instance : ToString Refusal where
  toString
    | .full => "output limit reached"

instance : Writer Sink Refusal where
  write
    | discard, _ => (discard, none)
    | buffer text, s => (buffer (text ++ s), none)
    | limited text room, s =>
      if s.utf8ByteSize ≤ room then (limited (text ++ s) (room - s.utf8ByteSize), none)
      else (limited (text ++ Text.takeOctets s room) 0, some .full)

/-- What has been written. -/
def text : Sink → String
  | discard => ""
  | buffer text => text
  | limited text _ => text

/-- The same sink with its text handed over and forgotten. -/
def drained : Sink → Sink
  | discard => discard
  | buffer _ => buffer ""
  | limited _ room => limited "" room

end Sink

end StackLang

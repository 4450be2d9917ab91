import StackLang.Sink

/-!
# Buffered output

A buffer in front of a writer.  What is written is held back and handed on in pieces: when another
character comes and the buffer is full, and at the end, when it is flushed.  The first piece that
the writer does not take ends the output: what is written afterwards is dropped.
-/

set_option autoImplicit false

namespace StackLang

/-- A buffer in front of a writer of the kind `σ`, whose errors are in `ε`. -/
structure Buffer (σ ε : Type) where
  sink : σ
  /-- What has been written and not been handed on. -/
  held : String := ""
  /-- What the writer said about a piece that it did not take. -/
  error : Option ε := none
  deriving DecidableEq, Repr

namespace Buffer

variable {σ ε : Type} [Writer σ ε]

/-- The number of octets that are held back at most. -/
def capacity : Nat := 4096

/-- Hand on what is held. -/
def flush (b : Buffer σ ε) : Buffer σ ε :=
  if b.error.isSome || b.held.isEmpty then b
  else
    match Writer.write b.sink b.held with
    | (sink, none) => { sink }
    | (sink, some e) => { b with sink, error := some e }

/-- Write one character, after what is held has made room for it. -/
def put (b : Buffer σ ε) (c : Char) : Buffer σ ε :=
  let b := if b.held.utf8ByteSize + c.utf8Size ≤ capacity then b else b.flush
  if b.error.isSome then b else { b with held := b.held.push c }

/-- Write a text. -/
def write (b : Buffer σ ε) (s : String) : Buffer σ ε := s.toList.foldl put b

end Buffer

end StackLang

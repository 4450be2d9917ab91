import StackLang.Clock

/-!
# Event queues

Events wait for their time in a binary heap: no event is earlier than the one above it.  Events of
the same time leave in the order that the heap gives them.
-/

set_option autoImplicit false

namespace StackLang

/-- A tick of a core. -/
structure Event (τ : Type) where
  time : τ
  core : Nat

/-- Events, as a binary heap by time. -/
structure EventQueue (τ : Type) where
  heap : Array (Event τ) := #[]

namespace EventQueue

variable {τ : Type} [Timeline τ]

/-- Whether the event at position `i` is earlier than the one at `j`. -/
def earlier (h : Array (Event τ)) (i j : Nat) : Bool :=
  match h[i]?, h[j]? with
  | some a, some b => Timeline.earlier a.time b.time
  | _, _ => false

/-- Move the event at position `j` up while it is earlier than the one above it. -/
def siftUp (h : Array (Event τ)) (j : Nat) : Array (Event τ) :=
  if j = 0 then h
  else
    let i := (j - 1) / 2
    if earlier h j i then siftUp (h.swapIfInBounds i j) i else h
termination_by j

/-- Move the event at position `i` down while one below it, of the first `n`, is earlier. -/
def siftDown (h : Array (Event τ)) (i n : Nat) : Array (Event τ) :=
  let left := 2 * i + 1
  if left < n then
    let right := left + 1
    let j := if right < n && earlier h right left then right else left
    if earlier h j i then siftDown (h.swapIfInBounds i j) j n else h
  else h
termination_by n - i
decreasing_by all_goals (split <;> omega)

/-- Add an event. -/
def push (q : EventQueue τ) (e : Event τ) : EventQueue τ :=
  ⟨siftUp (q.heap.push e) q.heap.size⟩

/-- The next event, and the others. -/
def pop? (q : EventQueue τ) : Option (Event τ × EventQueue τ) :=
  match q.heap[0]? with
  | none => none
  | some e =>
    let n := q.heap.size - 1
    some (e, ⟨(siftDown (q.heap.swapIfInBounds 0 n) 0 n).pop⟩)

end EventQueue

end StackLang

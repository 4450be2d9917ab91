import StackLang.Core
import StackLang.EventQueue

/-!
# Timed simulation

Cores share one time.  A simulation takes the ticks of all cores in the order of their times; a
core that has more to do after a tick is scheduled for its next one.  A core is not scheduled for
a tick at or before the latest one it has been scheduled for.
-/

set_option autoImplicit false

namespace StackLang

/-- Cores, the ticks to come, and the time of the last tick taken. -/
structure Simulation (τ : Type) where
  now : τ
  queue : EventQueue τ := {}
  cores : Array (Core τ) := #[]
  log : Array Log.Record := #[]

namespace Simulation

variable {τ : Type} [Timeline τ]

/-- A simulation without cores, at its start. -/
def fresh : Simulation τ := { now := Timeline.start }

/-- The core with a number. -/
def core? (s : Simulation τ) (i : Nat) : Option (Core τ) := s.cores[i]?

/-- The number of the last core with a name. -/
def numberOf? (s : Simulation τ) (name : String) : Option Nat :=
  (List.range s.cores.size).reverse.find? fun i => (s.core? i).any fun c => c.name == name

/-- The same simulation with another core in place of one. -/
def setCore (s : Simulation τ) (i : Nat) (c : Core τ) : Simulation τ :=
  { s with cores := s.cores.setIfInBounds i c }

/-- Add a core under a new number, if its name is valid. -/
def addCore (s : Simulation τ) (c : Core τ) : Except Misuse (Simulation τ × Nat) :=
  match CoreName.misuse? c.name with
  | some m => .error m
  | none => .ok ({ s with cores := s.cores.push c }, s.cores.size)

/-- Schedule a core for a tick, which must not be in the past. -/
def schedule (s : Simulation τ) (i : Nat) (c : Core τ) (time : τ) : Simulation τ × Option Misuse :=
  if Timeline.earlier time s.now then (s, some .past)
  else ({ s.setCore i { c with lastTick := time } with queue := s.queue.push ⟨time, i⟩ }, none)

/-- Schedule a core for the first tick from now on. -/
def tickNow (s : Simulation τ) (i : Nat) : Simulation τ × Option Misuse :=
  match s.core? i with
  | none => (s, none)
  | some c =>
    if Timeline.reached c.lastTick s.now then (s, none)
    else if !Timeline.isTime s.now then (s, some .noTime)
    else s.schedule i c (c.clock.thisTick s.now)

/-- Schedule a core for the first tick after now. -/
def tickLater (s : Simulation τ) (i : Nat) : Simulation τ × Option Misuse :=
  match s.core? i with
  | none => (s, none)
  | some c =>
    if !Timeline.isTime s.now then (s, some .noTime)
    else
      let time := c.clock.nextTick s.now
      if Timeline.reached c.lastTick time then (s, none) else s.schedule i c time

/-- Why a program was not put on a core. -/
inductive MapError where
  | unlinked
  | misuse (m : Misuse)
  deriving DecidableEq, Repr

/-- Put a program on a core and schedule its first tick. -/
def mapProgram (s : Simulation τ) (i : Nat) (p : Program) : Simulation τ × Option MapError :=
  match s.core? i with
  | none => (s, none)
  | some c =>
    match c.map? p with
    | none => (s, some .unlinked)
    | some c =>
      let s := { s.setCore i c with log := s.log.push (c.mapRecord p) }
      if c.halted then (s, none)
      else
        match s.tickNow i with
        | (s, none) => (s, none)
        | (s, some m) => (s, some (.misuse m))

/-- One tick of a core, outside the order of events.  The flag says whether there is more to
do. -/
def tickCore (s : Simulation τ) (i : Nat) : Simulation τ × Bool :=
  let { now, queue, cores, log } := s
  match cores[i]? with
  | none => ({ now, queue, cores, log }, false)
  | some c =>
    let cores := cores.setIfInBounds i { name := "", clock := c.clock, lastTick := c.lastTick }
    let (c, more, log) := c.tick now log
    ({ now, queue, cores := cores.setIfInBounds i c, log }, more)

/-- One round of a run, which takes the next event: the simulation to go on with, or what the run
ends with. -/
def round (s : Simulation τ) : Simulation τ ⊕ Simulation τ × Option Misuse :=
  match s.queue.pop? with
  | none => .inr (s, none)
  | some (e, queue) =>
    if Timeline.earlier e.time s.now then
      .inr (s, some (.late (Timeline.shown e.time) (Timeline.shown s.now)))
    else
      match ({ s with queue, now := e.time }).tickCore e.core with
      | (s, false) => .inl s
      | (s, true) =>
        match s.tickLater e.core with
        | (s, none) => .inl s
        | (s, some m) => .inr (s, some m)

instance : Nonempty (Simulation τ) := ⟨fresh⟩

/-- Take events until there are none left. -/
def run (s : Simulation τ) : Simulation τ × Option Misuse := Id.run (repeatM round s)

end Simulation

end StackLang

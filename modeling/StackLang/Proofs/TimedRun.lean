import Mathlib.Algebra.Ring.Nat
import Mathlib.Data.List.Forall2
import Mathlib.Data.List.Nodup
import StackLang.Proofs.CoreName
import StackLang.Proofs.Machine.Logged

/-!
# Timed runs

A core executes one instruction per tick, so a program that is run on a core with a clock leaves
what a machine leaves that runs it: the same output, the same fault, and as many cycles as the
machine has executed instructions (`simulateTimed_agrees`).  That is so for each of the calls that a
workbench takes one after the other, on one simulation or each on a simulation of its own.

What is asked of the clock is `Clock.Ticks`, for as many ticks as there are instructions to
execute: a tick is not earlier than the time at which it is scheduled, and the tick after another
one has not been scheduled before.
-/

set_option autoImplicit false

namespace StackLang

variable {τ : Type}

namespace Simulation

variable {s : Simulation τ} {i : Nat} {c c' : Core τ} {log : Array Log.Record}

/-- The simulation at another time, with another core in place of one. -/
def moved (s : Simulation τ) (t : τ) (queue : EventQueue τ) (i : Nat) (c : Core τ)
    (log : Array Log.Record) : Simulation τ :=
  { now := t, queue, cores := s.cores.setIfInBounds i c, log }

theorem moved_moved (s : Simulation τ) (t t' : τ) (q q' : EventQueue τ) (i : Nat) (c c' : Core τ)
    (log log' : Array Log.Record) :
    (s.moved t q i c log).moved t' q' i c' log' = s.moved t' q' i c' log' := by
  simp [moved]

theorem core?_moved (hcore : s.core? i = some c) (t : τ) (q : EventQueue τ) :
    (s.moved t q i c' log).core? i = some c' := by
  obtain ⟨hi, -⟩ := Array.getElem?_eq_some_iff.1 hcore
  rw [core?, moved, Array.getElem?_setIfInBounds_self_of_lt hi]

theorem map_name_moved (hcore : s.core? i = some c) (hname : c'.name = c.name) (t : τ)
    (q : EventQueue τ) :
    (s.moved t q i c' log).cores.map (·.name) = s.cores.map (·.name) := by
  obtain ⟨hi, hc⟩ := Array.getElem?_eq_some_iff.1 hcore
  refine Array.ext_getElem? fun k => ?_
  rw [Array.getElem?_map, Array.getElem?_map, moved]
  by_cases hk : i = k
  · subst hk
    rw [Array.getElem?_setIfInBounds_self_of_lt hi, Array.getElem?_eq_getElem hi, hc,
      Option.map_some, Option.map_some, hname]
  · rw [Array.getElem?_setIfInBounds_ne hk]

end Simulation

variable [Timeline τ]

/-! ## Ticks -/

namespace Clock

variable {c : Clock τ} {t : τ} {k n : Nat}

/-- At the time `t` a core can be scheduled for its tick, or for the tick that follows. -/
structure TicksAt (c : Clock τ) (t : τ) : Prop where
  isTime : Timeline.isTime t = true
  first : Timeline.reached Timeline.before t = false
  this_le : Timeline.earlier (c.thisTick t) t = false
  next_le : Timeline.earlier (c.nextTick t) t = false
  next_new : Timeline.reached t (c.nextTick t) = false

/-- From the time `t` on the clock ticks `n` times. -/
def Ticks (c : Clock τ) : (n : Nat) → (t : τ) → Prop
  | 0, _ => True
  | n + 1, t => c.TicksAt t ∧ c.Ticks n (c.thisTick t) ∧ c.Ticks n (c.nextTick t)

theorem Ticks.of_le (h : c.Ticks n t) (hk : k ≤ n) : c.Ticks k t := by
  induction k generalizing n t with
  | zero => trivial
  | succ k ih =>
    obtain ⟨n, rfl⟩ : ∃ j, n = j + 1 := ⟨n - 1, by omega⟩
    exact ⟨h.1, ih h.2.1 (by omega), ih h.2.2 (by omega)⟩

end Clock

namespace EventQueue

theorem push_empty (e : Event τ) : push {} e = ⟨#[e]⟩ := by
  simp [push, siftUp]

theorem pop?_empty : pop? ({} : EventQueue τ) = none := rfl

theorem pop?_singleton (e : Event τ) : pop? ⟨#[e]⟩ = some (e, {}) := by
  simp [pop?, siftDown]
  rfl

end EventQueue

/-! ## One tick of a core -/

namespace Core

variable {c : Core τ} {m m' : Machine} {f : Fault}

theorem tick_of_fault (hm : c.machine = some m) (hc : c.fault = none)
    (h : m.step = (m', some f)) (now : τ) (log : Array Log.Record) :
    ∃ log', c.tick now log = ({ c with machine := some m', fault := some f }, false, log') := by
  simp only [tick, hm, hc, Machine.not_halted_of_fault h, Machine.stepLogged, h]
  exact ⟨_, rfl⟩

theorem tick_of_step (hm : c.machine = some m) (hc : c.fault = none) (hrun : m.halted = false)
    (h : m.step = (m', none)) (now : τ) (log : Array Log.Record) :
    ∃ log', c.tick now log =
      ({ c with machine := some m', cycles := c.cycles + 1 }, !m'.halted, log') := by
  simp only [tick, hm, hc, hrun, Machine.stepLogged, h]
  cases hm' : m'.halted
  · exact ⟨_, rfl⟩
  · exact ⟨_, rfl⟩

/-- The core with a machine about to run. -/
def loaded (c : Core τ) (m : Machine) : Core τ :=
  { c with machine := some m, cycles := 0, fault := none }

/-- The core when its machine has come to its end at the time `t`. -/
def ended (c : Core τ) (m : Machine) (status : Machine.Status) (t : τ) : Core τ :=
  { c with machine := some m, fault := status.fault?, cycles := m.steps, lastTick := t }

end Core

/-! ## A simulation with one event -/

namespace Simulation

variable {s : Simulation τ} {i : Nat} {c c' : Core τ} {t : τ} {log : Array Log.Record}

/-- A run is its first round, and the run of the simulation that is left to go on with. -/
theorem run_eq (s : Simulation τ) : s.run = s.round.elim run id := repeatM_eq_elim round s

theorem run_of_empty (h : s.queue = {}) : s.run = (s, none) := by
  rw [run_eq, round, h, EventQueue.pop?_empty]
  rfl

theorem tickCore_eq {more : Bool} (hcore : s.core? i = some c)
    (htick : c.tick s.now s.log = (c', more, log)) :
    s.tickCore i = (s.moved s.now s.queue i c' log, more) := by
  simp only [core?] at hcore
  simp [tickCore, hcore, htick, moved]

theorem schedule_eq (h : Timeline.earlier t s.now = false) :
    s.schedule i c t =
      (s.moved s.now (s.queue.push ⟨t, i⟩) i { c with lastTick := t } s.log, none) := by
  rw [schedule, if_neg (by simp [h])]
  rfl

theorem tickNow_eq (hcore : s.core? i = some c) (hlast : c.lastTick = Timeline.before)
    (hticks : c.clock.TicksAt s.now) :
    s.tickNow i = (s.moved s.now (s.queue.push ⟨c.clock.thisTick s.now, i⟩) i
      { c with lastTick := c.clock.thisTick s.now } s.log, none) := by
  simp only [tickNow, hcore, hlast, hticks.first, hticks.isTime]
  exact schedule_eq hticks.this_le

theorem tickLater_eq (hcore : s.core? i = some c) (hlast : c.lastTick = s.now)
    (hticks : c.clock.TicksAt s.now) :
    s.tickLater i = (s.moved s.now (s.queue.push ⟨c.clock.nextTick s.now, i⟩) i
      { c with lastTick := c.clock.nextTick s.now } s.log, none) := by
  simp only [tickLater, hcore, hlast, hticks.isTime, hticks.next_new]
  exact schedule_eq hticks.next_le

/-- The only event is a tick after which the core has nothing to do. -/
theorem run_last (hqueue : s.queue = ⟨#[⟨t, i⟩]⟩) (hnow : Timeline.earlier t s.now = false)
    (hcore : s.core? i = some c) (htick : c.tick t s.log = (c', false, log)) :
    s.run = (s.moved t {} i c' log, none) := by
  have hcore' : ({ s with queue := {}, now := t } : Simulation τ).core? i = some c := hcore
  rw [run_eq, round, hqueue, EventQueue.pop?_singleton]
  simp only [hnow, Bool.false_eq_true, if_false]
  rw [tickCore_eq hcore' htick]
  exact run_of_empty rfl

/-- The only event is a tick after which the core has more to do. -/
theorem run_next (hqueue : s.queue = ⟨#[⟨t, i⟩]⟩) (hnow : Timeline.earlier t s.now = false)
    (hcore : s.core? i = some c) (htick : c.tick t s.log = (c', true, log))
    (hlast : c'.lastTick = t) (hticks : c'.clock.TicksAt t) :
    s.run = (s.moved t ⟨#[⟨c'.clock.nextTick t, i⟩]⟩ i
      { c' with lastTick := c'.clock.nextTick t } log).run := by
  have hcore' : ({ s with queue := {}, now := t } : Simulation τ).core? i = some c := hcore
  rw [run_eq, round, hqueue, EventQueue.pop?_singleton]
  simp only [hnow, Bool.false_eq_true, if_false]
  rw [tickCore_eq hcore' htick]
  simp only
  rw [tickLater_eq (core?_moved hcore' t _) hlast hticks, moved_moved]
  show (s.moved t (EventQueue.push {} _) i _ log).run = _
  rw [EventQueue.push_empty]
  rfl

/-- **A core that is scheduled for a tick runs its machine to its end.**  It takes a tick for each
instruction, so the clock goes on ticking for as long as it would have without them. -/
theorem run_scheduled {m m' : Machine} {status : Machine.Status} {n k : Nat}
    (hqueue : s.queue = ⟨#[⟨t, i⟩]⟩) (hnow : Timeline.earlier t s.now = false)
    (hcore : s.core? i = some c) (hlast : c.lastTick = t) (hm : c.machine = some m)
    (hfault : c.fault = none) (hcycles : c.cycles = m.steps) (hhalted : m.halted = false)
    (hstatus : status ≠ .running) (hrun : m.runFor n = (m', status))
    (hticks : c.clock.Ticks (m'.steps - m.steps + k) t) :
    ∃ now log, s.run = (s.moved now {} i (c.ended m' status now) log, none) ∧
      c.clock.Ticks k now := by
  induction n generalizing s c m t with
  | zero =>
    rw [Machine.runFor, hhalted] at hrun
    cases hrun
    exact absurd rfl hstatus
  | succ n ih =>
    rcases hstep : m.step with ⟨m₁, _ | f⟩
    · rw [Machine.runFor_succ hhalted hstep] at hrun
      obtain ⟨log, htick⟩ := Core.tick_of_step hm hfault hhalted hstep t s.log
      have hsteps := Machine.steps_of_step hhalted hstep
      have hle := Machine.steps_le_of_runFor hrun
      cases hhalted₁ : m₁.halted with
      | true =>
        rw [hhalted₁] at htick
        cases (Machine.runFor_of_halted hhalted₁ n).symm.trans hrun
        refine ⟨t, log, ?_, hticks.of_le (by omega)⟩
        rw [run_last hqueue hnow hcore htick, Core.ended, hsteps, ← hcycles, ← hlast, hfault]
        rfl
      | false =>
        rw [hhalted₁] at htick
        obtain ⟨j, hj⟩ : ∃ j, m'.steps - m.steps + k = j + 1 := ⟨m'.steps - m₁.steps + k, by omega⟩
        rw [hj] at hticks
        obtain ⟨now, log', hrun', hnow'⟩ :=
          ih (s := s.moved t ⟨#[⟨c.clock.nextTick t, i⟩]⟩ i _ log)
            (c := { c with
              machine := some m₁, cycles := c.cycles + 1, lastTick := c.clock.nextTick t })
            rfl hticks.1.next_le (core?_moved hcore t _) rfl rfl hfault
            (by rw [hsteps, hcycles]) hhalted₁ hrun (hticks.2.2.of_le (by omega))
        refine ⟨now, log', ?_, hnow'⟩
        rw [run_next hqueue hnow hcore htick hlast hticks.1, hrun', moved_moved]
        rfl
    · rw [Machine.runFor_fault hstep] at hrun
      cases hrun
      obtain ⟨log, htick⟩ := Core.tick_of_fault hm hfault hstep t s.log
      refine ⟨t, log, ?_, hticks.of_le (by omega)⟩
      rw [run_last hqueue hnow hcore htick, Core.ended, Machine.steps_of_fault hstep, ← hcycles,
        ← hlast]
      rfl

/-- A program that is not linked is not put on a core. -/
theorem mapProgram_unlinked {p : Program} (hcore : s.core? i = some c)
    (hm : Machine.ofProgram? p c.sink = none) : s.mapProgram i p = (s, some .unlinked) := by
  have hmap : c.map? p = none := by rw [Core.map?, hm, Option.map_none]
  simp only [mapProgram, hcore, hmap]

/-- A program without instructions is put on a core, and nothing is scheduled. -/
theorem mapProgram_halted {p : Program} {m : Machine} (hcore : s.core? i = some c)
    (hm : Machine.ofProgram? p c.sink = some m) (hhalted : m.halted = true) :
    s.mapProgram i p = (s.moved s.now s.queue i (c.loaded m)
      (s.log.push ((c.loaded m).mapRecord p)), none) := by
  have hmap : c.map? p = some (c.loaded m) := by rw [Core.map?, hm]; rfl
  have hcore' : (c.loaded m).halted = true := hhalted
  simp only [mapProgram, hcore, hmap, hcore', if_true]
  rfl

/-- Any other program is put on a core with a tick to come. -/
theorem mapProgram_scheduled {p : Program} {m : Machine} (hcore : s.core? i = some c)
    (hm : Machine.ofProgram? p c.sink = some m) (hhalted : m.halted = false)
    (hlast : c.lastTick = Timeline.before) (hticks : c.clock.TicksAt s.now) :
    s.mapProgram i p = (s.moved s.now (s.queue.push ⟨c.clock.thisTick s.now, i⟩) i
      { c.loaded m with lastTick := c.clock.thisTick s.now }
      (s.log.push ((c.loaded m).mapRecord p)), none) := by
  have hmap : c.map? p = some (c.loaded m) := by rw [Core.map?, hm]; rfl
  have hcore' : (c.loaded m).halted = false := hhalted
  have hnow := tickNow_eq (s := s.moved s.now s.queue i (c.loaded m)
    (s.log.push ((c.loaded m).mapRecord p))) (core?_moved hcore _ _) hlast hticks
  simp only [mapProgram, hcore, hmap, hcore', Bool.false_eq_true, if_false]
  rw [show { s.setCore i (c.loaded m) with log := s.log.push ((c.loaded m).mapRecord p) } =
    s.moved s.now s.queue i (c.loaded m) (s.log.push ((c.loaded m).mapRecord p)) from rfl, hnow,
    moved_moved]
  rfl

/-- **A program put on a new core of an idle simulation is run to its end.** -/
theorem run_mapProgram {p : Program} {m m' : Machine} {status : Machine.Status} {k : Nat}
    (hqueue : s.queue = {}) (hcore : s.core? i = some c) (hlast : c.lastTick = Timeline.before)
    (hm : Machine.ofProgram? p c.sink = some m) (hends : m.Ends m' status)
    (hticks : c.clock.Ticks (m'.steps + 1 + k) s.now) :
    ∃ s₁ now last log, s.mapProgram i p = (s₁, none) ∧
      s₁.run = (s.moved now {} i (c.ended m' status last) log, none) ∧ c.clock.Ticks k now := by
  obtain ⟨hstatus, n, hrun⟩ := hends
  have hsteps : m.steps = 0 := by
    rw [Machine.ofProgram?, Option.ite_none_right_eq_some, Option.some_inj] at hm
    rw [← hm.2]
  cases hhalted : m.halted with
  | true =>
    cases (Machine.runFor_of_halted hhalted n).symm.trans hrun
    refine ⟨_, s.now, c.lastTick, s.log.push ((c.loaded m).mapRecord p),
      mapProgram_halted hcore hm hhalted, ?_, hticks.of_le (by omega)⟩
    rw [hqueue, run_of_empty rfl, Core.ended, hsteps]
    rfl
  | false =>
    rw [Nat.add_right_comm] at hticks
    obtain ⟨now, log, hscheduled, hnow⟩ :=
      run_scheduled (k := k) (c := { c.loaded m with lastTick := c.clock.thisTick s.now })
        (s := s.moved s.now ⟨#[⟨c.clock.thisTick s.now, i⟩]⟩ i _
          (s.log.push ((c.loaded m).mapRecord p)))
        rfl hticks.1.this_le (core?_moved hcore _ _) rfl rfl rfl hsteps.symm hhalted hstatus hrun
        (hticks.2.1.of_le (by omega))
    refine ⟨_, now, now, log, mapProgram_scheduled hcore hm hhalted hlast hticks.1, ?_, hnow⟩
    rw [hqueue, EventQueue.push_empty, hscheduled, moved_moved]
    rfl

end Simulation

/-! ## One job -/

/-- A program to run, where it writes, and the world in which that happens. -/
structure Job where
  world : World
  program : Program
  out : Sink

namespace Job

/-- The machine that runs the program, if that is linked. -/
def machine? (j : Job) : Option Machine := Machine.ofProgram? j.program j.out

/-- The program is not linked, or it comes to its end on a machine. -/
def Ends (j : Job) : Prop := ∀ m, j.machine? = some m → ∃ m' status, m.Ends m' status

/-- The ticks that are enough for the job. -/
def ticks (j : Job) : Nat :=
  match j.machine? with
  | none => 0
  | some m => m.run.1.steps + 1

/-- What a timed run leaves is what the machine leaves.  A program that is not linked is reported,
and nothing is written.  Any other has the output and the fault of the machine, and takes a cycle
for each instruction that the machine executes. -/
def Agrees (j : Job) (r : TimedRun τ) : Prop :=
  match j.machine? with
  | none => r.error = some .unlinked ∧ r.out = j.out
  | some m =>
    r.out = m.run.1.out ∧ r.error = m.run.2.fault?.map .fault ∧
      r.timing.cycles = m.run.1.steps ∧ r.timing.steps = m.run.1.steps

omit [Timeline τ] in
theorem Agrees.of_ends {j : Job} {r : TimedRun τ} {m m' : Machine} {status : Machine.Status}
    (h : j.Agrees r) (hm : j.machine? = some m) (hends : m.Ends m' status) :
    r.out = m'.out ∧ r.error = status.fault?.map .fault ∧
      r.timing.cycles = m'.steps ∧ r.timing.steps = m'.steps := by
  rw [Agrees, hm] at h
  simpa only [hends.run_eq] using h

end Job

namespace Workbench

variable {b b' : Workbench τ} {j : Job} {k : Nat}

/-- The simulation in which the next timed run starts. -/
def simulation (b : Workbench τ) : Simulation τ := b.shared.getD .fresh

/-- The timed run of a job. -/
def take (b : Workbench τ) (j : Job) : TimedRun τ := b.simulateTimed j.world j.program j.out

/-- The simulation with the core for a job. -/
def entered (b : Workbench τ) (j : Job) : Simulation τ :=
  { b.simulation with cores := b.simulation.cores.push (b.newCore j.out), log := j.world.log }

theorem addCore_eq (hname : CoreName.misuse? (b.newCore j.out).name = none) :
    Simulation.addCore { b.simulation with log := j.world.log } (b.newCore j.out) =
      .ok (b.entered j, b.simulation.cores.size) := by
  rw [Simulation.addCore, hname]
  rfl

theorem core?_entered (b : Workbench τ) (j : Job) :
    (b.entered j).core? b.simulation.cores.size = some (b.newCore j.out) :=
  Array.getElem?_push_size

/-- What a job that is done leaves of a workbench: the simulation has a core more, of the name that
was due, and nothing is scheduled. -/
structure Follows (b b' : Workbench τ) (out : Sink) (k : Nat) : Prop where
  name : b'.name = b.name
  clock : b'.clock = b.clock
  runs : b'.runs = b.runs + 1
  shared : ∃ sim : Simulation τ, b'.shared = b.shared.map (fun _ => sim) ∧ sim.queue = {} ∧
    sim.cores.map (·.name) = (b.simulation.cores.map (·.name)).push (b.newCore out).name ∧
    b.clock.Ticks k sim.now

theorem take_unlinked (hname : CoreName.misuse? (b.newCore j.out).name = none)
    (hidle : b.simulation.queue = {}) (hm : j.machine? = none)
    (hticks : b.clock.Ticks k b.simulation.now) :
    j.Agrees (b.take j) ∧ b.Follows (b.take j).bench j.out k := by
  have hadd := addCore_eq hname
  have hmap : (b.entered j).mapProgram b.simulation.cores.size j.program = (_, some .unlinked) :=
    Simulation.mapProgram_unlinked (core?_entered b j) hm
  have htake : b.take j =
      { bench := { b with
          runs := b.runs + 1
          shared := b.shared.map fun _ => { b.entered j with log := #[] } }
        world := { j.world with log := (b.entered j).log }
        out := j.out, error := some .unlinked } := by
    simp only [take, simulateTimed]
    rw [show b.shared.getD .fresh = b.simulation from rfl, hadd]
    simp only
    rw [hmap]
    rfl
  rw [htake, Job.Agrees, hm]
  exact ⟨⟨rfl, rfl⟩, rfl, rfl, rfl, _, rfl, hidle, Array.map_push, hticks⟩

theorem take_linked {m m' : Machine} {status : Machine.Status}
    (hname : CoreName.misuse? (b.newCore j.out).name = none)
    (hidle : b.simulation.queue = {}) (hm : j.machine? = some m) (hends : m.Ends m' status)
    (hticks : b.clock.Ticks (m'.steps + 1 + k) b.simulation.now) :
    j.Agrees (b.take j) ∧ b.Follows (b.take j).bench j.out k := by
  obtain ⟨s₁, now, last, log, hmap, hrun, hnow⟩ :=
    Simulation.run_mapProgram (k := k) (s := b.entered j) hidle (core?_entered b j) rfl hm hends
      hticks
  have hcore : ((b.entered j).moved now {} b.simulation.cores.size
      ((b.newCore j.out).ended m' status last) log).core? b.simulation.cores.size = some _ :=
    Simulation.core?_moved (core?_entered b j) now {}
  have hadd := addCore_eq hname
  have hnames : ((b.entered j).moved now {} b.simulation.cores.size
      ((b.newCore j.out).ended m' status last) log).cores.map (·.name) =
      (b.simulation.cores.map (·.name)).push (b.newCore j.out).name := by
    rw [Simulation.map_name_moved (core?_entered b j), entered, Array.map_push]
    rfl
  rw [Job.Agrees, hm]
  simp only [hends.run_eq, take, simulateTimed]
  rw [show b.shared.getD .fresh = b.simulation from rfl, hadd]
  simp only
  rw [hmap]
  simp only
  rw [hrun]
  simp only
  rw [hcore]
  cases status with
  | halted =>
    exact ⟨⟨rfl, rfl, rfl, rfl⟩, rfl, rfl, rfl, _, rfl, rfl, hnames, hnow⟩
  | faulted f => exact ⟨⟨rfl, rfl, rfl, rfl⟩, rfl, rfl, rfl, _, rfl, rfl, hnames, hnow⟩
  | running => exact absurd rfl hends.1

/-- **A job is done as a machine would do it, and leaves an idle simulation.** -/
theorem take_spec (hname : CoreName.misuse? (b.newCore j.out).name = none)
    (hidle : b.simulation.queue = {}) (hends : j.Ends)
    (hticks : b.clock.Ticks (j.ticks + k) b.simulation.now) :
    j.Agrees (b.take j) ∧ b.Follows (b.take j).bench j.out k := by
  rw [Job.ticks] at hticks
  cases hm : j.machine? with
  | none =>
    rw [hm] at hticks
    exact take_unlinked hname hidle hm (hticks.of_le (by omega))
  | some m =>
    obtain ⟨m', status, hm'⟩ := hends m hm
    simp only [hm, hm'.run_eq] at hticks
    exact take_linked hname hidle hm hm' hticks

theorem Follows.idle {out : Sink} (h : b.Follows b' out k) : b'.simulation.queue = {} := by
  obtain ⟨sim, hshared, hqueue, -⟩ := h.shared
  rw [simulation, hshared]
  cases b.shared with
  | none => rfl
  | some _ => exact hqueue

theorem Follows.ticks {out : Sink} (h : b.Follows b' out k)
    (hticks : b.clock.Ticks k b.simulation.now) : b'.clock.Ticks k b'.simulation.now := by
  obtain ⟨sim, hshared, -, -, hnow⟩ := h.shared
  rw [h.clock, simulation, hshared]
  rw [simulation] at hticks
  cases hb : b.shared with
  | none =>
    rw [hb] at hticks
    exact hticks
  | some _ => exact hnow

/-! ## Jobs one after the other -/

/-- The timed runs of jobs, each on the workbench that the one before it leaves. -/
def takeAll (b : Workbench τ) : List Job → List (TimedRun τ)
  | [] => []
  | j :: jobs => b.take j :: (b.take j).bench.takeAll jobs

/-- The workbench after jobs. -/
def afterAll (b : Workbench τ) : List Job → Workbench τ
  | [] => b
  | j :: jobs => (b.take j).bench.afterAll jobs

/-- The names of the cores on which jobs are run. -/
def namesUsed (b : Workbench τ) : List Job → List String
  | [] => []
  | j :: jobs => (b.newCore j.out).name :: (b.take j).bench.namesUsed jobs

/-- The names of the cores of the simulation that all jobs share. -/
def sharedNames (b : Workbench τ) : Option (List String) :=
  b.shared.map fun sim => sim.cores.toList.map (·.name)

theorem Follows.sharedNames {out : Sink} (h : b.Follows b' out k) :
    b'.sharedNames = b.sharedNames.map (· ++ [(b.newCore out).name]) := by
  obtain ⟨sim, hshared, -, hnames, -⟩ := h.shared
  rw [Workbench.sharedNames, Workbench.sharedNames, hshared]
  rw [simulation] at hnames
  cases hb : b.shared with
  | none => rfl
  | some _ =>
    rw [hb] at hnames
    have hlist := congrArg Array.toList hnames
    simpa using hlist

theorem takeAll_spec {jobs : List Job} (hname : CoreName.problem? b.name = none)
    (hruns : b.runs + jobs.length ≤ 0x8000000000000000) (hidle : b.simulation.queue = {})
    (hends : ∀ j ∈ jobs, j.Ends)
    (hticks : b.clock.Ticks (jobs.map Job.ticks).sum b.simulation.now) :
    List.Forall₂ Job.Agrees jobs (b.takeAll jobs) ∧
      b.namesUsed jobs = (List.range' (b.runs + 1) jobs.length).map b.coreName ∧
      (b.afterAll jobs).sharedNames = b.sharedNames.map (· ++ b.namesUsed jobs) := by
  induction jobs generalizing b with
  | nil =>
    refine ⟨.nil, rfl, ?_⟩
    simp [afterAll, namesUsed]
  | cons j jobs ih =>
    obtain ⟨hj, hjobs⟩ := List.forall_mem_cons.1 hends
    rw [List.map_cons, List.sum_cons] at hticks
    rw [List.length_cons] at hruns
    obtain ⟨hagrees, hnext⟩ :=
      take_spec (misuse?_coreName hname (by omega)) hidle hj hticks
    have hcoreName : (b.take j).bench.coreName = b.coreName :=
      funext fun n => by rw [coreName, coreName, hnext.name]
    obtain ⟨hall, hnames, hshared⟩ := ih (by rw [hnext.name, hname]) (by rw [hnext.runs]; omega)
      hnext.idle hjobs (hnext.ticks (hticks.of_le (by omega)))
    refine ⟨.cons hagrees hall, ?_, ?_⟩
    · rw [namesUsed, hnames, hcoreName, hnext.runs, List.length_cons, List.range'_succ,
        List.map_cons]
      rfl
    · rw [afterAll, hshared, hnext.sharedNames, Option.map_map, namesUsed]
      simp [Function.comp_def]

/-- **Timed runs agree with the machine, job after job.**  On a workbench with a valid name, on
which nothing is scheduled, whatever the jobs before it did, a job whose program is not linked is
reported and writes nothing, and any other leaves what its machine leaves; no two jobs have cores of
the same name. -/
theorem simulateTimed_agrees {jobs : List Job} (hname : CoreName.problem? b.name = none)
    (hruns : b.runs + jobs.length ≤ 0x8000000000000000) (hidle : b.simulation.queue = {})
    (hends : ∀ j ∈ jobs, j.Ends)
    (hticks : b.clock.Ticks (jobs.map Job.ticks).sum b.simulation.now) :
    List.Forall₂ Job.Agrees jobs (b.takeAll jobs) ∧ (b.namesUsed jobs).Nodup ∧
      (b.afterAll jobs).sharedNames = b.sharedNames.map (· ++ b.namesUsed jobs) := by
  obtain ⟨hagrees, hnames, hshared⟩ := takeAll_spec hname hruns hidle hends hticks
  refine ⟨hagrees, ?_, hshared⟩
  rw [hnames]
  refine List.Nodup.map_on (fun m hm n hn h => ?_) List.nodup_range'
  rw [List.mem_range'_1] at hm hn
  exact coreName_inj (by omega) (by omega) h

end Workbench

/-! ## Times that are counted -/

/-- Times as the numbers of ticks from the start. -/
instance : Timeline Int where
  start := 0
  before := -1
  earlier a b := a < b
  reached a b := b ≤ a
  isTime _ := true
  logged t := .int t
  shown t := toString t

/-- The clock that ticks at all times. -/
def Clock.steady : Clock Int := ⟨id, (· + 1)⟩

theorem Clock.ticks_steady (n : Nat) {t : Int} (ht : 0 ≤ t) : steady.Ticks n t := by
  induction n generalizing t with
  | zero => trivial
  | succ n ih =>
    refine ⟨⟨rfl, ?_, ?_, ?_, ?_⟩, ih ht, ih (t := t + 1) (by omega)⟩
    · exact decide_eq_false (by rw [Timeline.before]; show ¬ t ≤ -1; omega)
    · exact decide_eq_false (Int.lt_irrefl t)
    · exact decide_eq_false (Int.not_lt.2 (Int.le_of_lt (Int.lt_succ t)))
    · exact decide_eq_false (Int.not_le.2 (Int.lt_succ t))

/-- A program that is not linked, one without instructions, one that faults at once and one that
prints a line, one after the other on one simulation. -/
theorem Workbench.simulateTimed_agrees_shared :
    let b : Workbench Int := { clock := .steady, shared := some .fresh }
    let job (linked : Bool) (code : Array Instr) : Job := ⟨{}, { linked, code }, .buffer ""⟩
    let jobs := [job false #[⟨.push, 7⟩], job true #[], job true #[⟨.plus, 0⟩],
      job true #[⟨.push, 7⟩, ⟨.dump, 0⟩]]
    (∀ j ∈ jobs, j.Ends) ∧ b.clock.Ticks (jobs.map Job.ticks).sum b.simulation.now ∧
      (b.namesUsed jobs).Nodup ∧
      ∃ r₁ r₂ r₃ r₄, b.takeAll jobs = [r₁, r₂, r₃, r₄] ∧
        (r₁.out, r₁.error) = (.buffer "", some .unlinked) ∧
        (r₂.out, r₂.error, r₂.timing.cycles) = (.buffer "", none, 0) ∧
        (r₃.out, r₃.error, r₃.timing.cycles) =
          (.buffer "", some (.fault ⟨0, .plus, .stackUnderflow⟩), 0) ∧
        (r₄.out, r₄.error, r₄.timing.cycles) = (.buffer "7\n", none, 2) := by
  intro b job jobs
  have hempty : ({ code := #[], out := .buffer "" } : Machine).Ends
      { code := #[], out := .buffer "" } .halted := ⟨nofun, 0, rfl⟩
  have hfault : ({ code := #[⟨.plus, 0⟩], out := .buffer "" } : Machine).Ends
      { code := #[⟨.plus, 0⟩], out := .buffer "" } (.faulted ⟨0, .plus, .stackUnderflow⟩) :=
    ⟨nofun, 1, rfl⟩
  have hprint : ({ code := #[⟨.push, 7⟩, ⟨.dump, 0⟩], out := .buffer "" } : Machine).Ends
      { code := #[⟨.push, 7⟩, ⟨.dump, 0⟩], ip := 2, steps := 2, out := .buffer "7\n" } .halted :=
    ⟨nofun, 2, rfl⟩
  have hends : ∀ j ∈ jobs, j.Ends := by
    intro j hj
    simp only [jobs, List.mem_cons, List.not_mem_nil, or_false] at hj
    obtain rfl | rfl | rfl | rfl := hj
    · exact nofun
    · rintro m ⟨⟩
      exact ⟨_, _, hempty⟩
    · rintro m ⟨⟩
      exact ⟨_, _, hfault⟩
    · rintro m ⟨⟩
      exact ⟨_, _, hprint⟩
  have hticks : b.clock.Ticks (jobs.map Job.ticks).sum b.simulation.now :=
    Clock.ticks_steady _ (Int.le_refl 0)
  obtain ⟨hagrees, hnames, -⟩ :=
    @simulateTimed_agrees Int _ b jobs (by decide +kernel) (by decide) rfl hends hticks
  refine ⟨hends, hticks, hnames, _, _, _, _, rfl, ?_⟩
  simp only [takeAll, List.forall₂_cons, jobs] at hagrees
  obtain ⟨⟨herror₁, hout₁⟩, h₂, h₃, h₄, -⟩ := hagrees
  obtain ⟨hout₂, herror₂, hcycles₂, -⟩ := h₂.of_ends rfl hempty
  obtain ⟨hout₃, herror₃, hcycles₃, -⟩ := h₃.of_ends rfl hfault
  obtain ⟨hout₄, herror₄, hcycles₄, -⟩ := h₄.of_ends rfl hprint
  rw [hout₁, herror₁, hout₂, herror₂, hcycles₂, hout₃, herror₃, hcycles₃, hout₄, herror₄, hcycles₄]
  exact ⟨rfl, rfl, rfl, rfl⟩

end StackLang

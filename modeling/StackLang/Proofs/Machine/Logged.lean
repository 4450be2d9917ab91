import StackLang.Proofs.Machine.Run
import StackLang.Workbench

/-!
# Runs with records

A run that keeps records goes as the run without them, be there a record of every instruction or of
none (`map_roundLogged`).  So a simulation ends with what its machine has written and the fault that
stopped it, however many instructions that takes (`Workbench.simulate_of_ends`).
-/

set_option autoImplicit false

namespace StackLang

namespace Machine

variable {m m' : Machine} {s : Status}

/-- The fault that a run has ended with, if any. -/
def Status.fault? : Status → Option Fault
  | .faulted f => some f
  | _ => none

/-- Apart from the records, a round with records is a round. -/
theorem map_roundLogged (trace : Bool) (x : Machine × Array Log.Record) :
    x.1.round = (roundLogged trace x).map Prod.fst fun y => (y.1, y.2.1) := by
  obtain ⟨m, log⟩ := x
  have hstep : ∃ log', m.stepLogged trace log = (m.step.1, m.step.2, log') := ⟨_, rfl⟩
  obtain ⟨log', hlog⟩ := hstep
  rw [round, roundLogged, hlog]
  by_cases hm : m.halted = true
  · rw [if_pos hm, if_pos hm]
    rfl
  · rw [if_neg hm, if_neg hm]
    rcases m.step with ⟨m₁, _ | f⟩ <;> rfl

theorem Ends.exists_runLogged_eq (h : m.Ends m' s) (trace : Bool) (log : Array Log.Record) :
    ∃ log', m.runLogged trace log = (m', s, log') := by
  have : Nonempty Machine := ⟨m⟩
  obtain ⟨⟨_, _, log'⟩, hloop, hy⟩ :=
    Loop.exists_of_map (map_roundLogged trace) (c := (m, log)) h.loop
  cases hy
  exact ⟨log', hloop.repeatM_eq⟩

end Machine

/-- **A simulation ends as its machine does.** -/
theorem Workbench.simulate_of_ends {τ : Type} (b : Workbench τ) (w : World) {p : Program}
    {out : Sink} {m m' : Machine} {s : Machine.Status} (hm : Machine.ofProgram? p out = some m)
    (h : m.Ends m' s) : (b.simulate w p out).2 = (m'.out, s.fault?.map .fault) := by
  obtain ⟨log', hlog⟩ := h.exists_runLogged_eq b.trace w.log
  simp only [simulate, hm, hlog]
  cases s <;> rfl

end StackLang

import StackLang.Proofs.Lint.Clean
import StackLang.Proofs.Machine.Budget

/-!
# Cycles of a program without issues

In a program without issues the address grows with every instruction, but for an `END` that goes
back to the `WHILE` of a loop (`step_forward_or_back`).  So the address and the number of times a
run has gone back bound its length: each time it goes back, it gets at most as many instructions
more as the program is long (`steps_add_ip_le`).  A program without a `WHILE` has no way back at
all, and comes to its end or to a fault in one go.
-/

set_option autoImplicit false

namespace StackLang

namespace Lint

/-- Every instruction is one that the checks accept where it stands. -/
def AllAccepted (code : Array Instr) : Prop :=
  ∀ a i, code[a]? = some i → Accepted code a i

/-- A jump that lands goes forward, unless it is an `END`. -/
theorem Lands.lt {code : Array Instr} {a t : Nat} {op : Op} (h : Lands code a op t)
    (hjump : op.isJump = true) (hop : op ≠ .close) : a < t := by
  cases op with
  | branch => exact h.1
  | otherwise => exact h.1
  | close => exact absurd rfl hop
  | body =>
    obtain ⟨z, w, rfl, hlt, -⟩ := h
    omega
  | _ => cases hjump

end Lint

namespace Machine

open Lint (Accepted AllAccepted GoesTo OpAt)

variable {m m' : Machine} {i : Instr} {e : Effect} {n w : Nat}

/-! ## Going back -/

/-- The next instruction is an `END` that goes back to a `WHILE` at `w`. -/
def LoopsBackTo (m : Machine) (w : Nat) : Prop :=
  GoesTo m.code m.ip .close w ∧ w < m.ip ∧ OpAt m.code w .loop

/-- Whether the next instruction is an `END` that goes back to a `WHILE`. -/
def loopsBack (m : Machine) : Bool :=
  match m.next? with
  | none => false
  | some i =>
    i.op = .close && 0 ≤ i.imm.toInt && i.imm.toInt < m.ip &&
      m.code[i.imm.toInt.toNat]?.map Instr.op = some .loop

/-- How many of `n` steps go back to a `WHILE`. -/
def loopBacks : (n : Nat) → Machine → Nat
  | 0, _ => 0
  | n + 1, m => m.loopsBack.toNat + loopBacks n m.step.1

theorem loopsBack_iff : m.loopsBack = true ↔ ∃ w, m.LoopsBackTo w := by
  constructor
  · intro h
    rw [loopsBack] at h
    split at h
    · cases h
    · rename_i i hi
      simp only [Bool.and_eq_true, decide_eq_true_eq] at h
      obtain ⟨⟨⟨hop, hpos⟩, hlt⟩, hloop⟩ := h
      exact ⟨i.imm.toInt.toNat, ⟨i, hi, hop, by omega⟩, by omega, hloop⟩
  · rintro ⟨w, ⟨i, hi, hop, himm⟩, hlt, hloop⟩
    have hloop' : m.code[w]?.map Instr.op = some .loop := hloop
    rw [loopsBack, show m.next? = some i from hi]
    simp [hop, himm, hlt, hloop']

theorem loopBacks_succ (h : m.step = (m', none)) (n : Nat) :
    loopBacks (n + 1) m = m.loopsBack.toNat + loopBacks n m' := by
  rw [loopBacks, h]

/-! ## One step -/

/-- Where the effect of an accepted instruction goes on. -/
theorem Acts.forward_or_back (hacts : Acts i m.ip m.code.size e) (hi : m.next? = some i)
    (haccepted : Accepted m.code m.ip i) : m.ip < e.next ∨ m.LoopsBackTo e.next := by
  cases hacts with
  | push | combine | dupl | dump | loop | nonzero => exact .inl (Nat.lt_succ_self m.ip)
  | zero hop hz hle =>
    have hjump : i.op.isJump = true := by rcases hop with h | h <;> rw [h] <;> rfl
    obtain ⟨t, ht, -, hlands⟩ := haccepted.2 hjump
    cases Int.ofNat_inj.1 (hz.symm.trans ht)
    exact .inl (hlands.lt hjump (by rcases hop with h | h <;> simp [h]))
  | jump hop hz hle =>
    have hjump : i.op.isJump = true := by rcases hop with h | h <;> rw [h] <;> rfl
    obtain ⟨t, ht, -, hlands⟩ := haccepted.2 hjump
    cases Int.ofNat_inj.1 (hz.symm.trans ht)
    obtain hop | hop := hop
    · exact .inl (hlands.lt hjump (by simp [hop]))
    · rw [hop] at hlands
      obtain rfl | ⟨hlt, hloop⟩ := hlands
      · exact .inl (Nat.lt_succ_self m.ip)
      · exact .inr ⟨⟨i, hi, hop, hz⟩, hlt, hloop⟩

theorem Acts.next_le (hacts : Acts i m.ip m.code.size e) (hi : m.next? = some i) :
    e.next ≤ m.code.size := by
  have hlt : m.ip < m.code.size := (Array.getElem?_eq_some_iff.1 hi).1
  cases hacts with
  | push | combine | dupl | dump | loop | nonzero => exact hlt
  | jump _ _ hle | zero _ _ hle => exact hle

/-- **A step of a program without issues goes forward, or back to a `WHILE`.**  A machine that has
halted does neither, and stays as it is. -/
theorem step_forward_or_back (hcode : AllAccepted m.code) (h : m.step = (m', none)) :
    (m.halted = true ∧ m' = m) ∨ m.ip < m'.ip ∨ ∃ w, m.LoopsBackTo w ∧ m'.ip = w := by
  obtain hhalted | ⟨i, e, m₁, hi, hacts, ⟨rest, out, -, -, rfl⟩, rfl⟩ := step_cases h
  · exact .inl hhalted
  · obtain hforward | hback := hacts.forward_or_back hi (hcode m.ip i hi)
    · exact .inr (.inl hforward)
    · exact .inr (.inr ⟨e.next, hback, rfl⟩)

/-- No step leaves the program. -/
theorem ip_le_of_step (h : m.step = (m', none)) : m'.ip ≤ max m.ip m.code.size := by
  obtain ⟨-, rfl⟩ | ⟨i, e, m₁, hi, hacts, ⟨rest, out, -, -, rfl⟩, rfl⟩ := step_cases h
  · exact Nat.le_max_left _ _
  · exact Nat.le_trans (hacts.next_le hi) (Nat.le_max_right _ _)

/-- What a step costs: the address grows by as much as the number of instructions, and a step back
gives the address a whole length of the program to grow again. -/
theorem steps_add_ip_le_of_step (hcode : AllAccepted m.code) (h : m.step = (m', none)) :
    m'.steps + m.ip ≤ m.steps + m.loopsBack.toNat * m.code.size + m'.ip := by
  by_cases hm : m.halted = true
  · cases (step_of_halted hm).symm.trans h
    omega
  · have hsteps := steps_of_step (by simpa using hm) h
    obtain ⟨hhalted, -⟩ | hforward | ⟨w, hback, rfl⟩ := step_forward_or_back hcode h
    · exact absurd hhalted hm
    · omega
    · have hlt : m.ip < m.code.size := by simpa [halted] using hm
      rw [loopsBack_iff.2 ⟨_, hback⟩, Bool.toNat_true]
      omega

/-! ## Many steps -/

theorem ip_le_of_stepTimes (h : stepTimes n m = some m') : m'.ip ≤ max m.ip m.code.size := by
  induction n generalizing m with
  | zero =>
    cases h
    exact Nat.le_max_left _ _
  | succ n ih =>
    obtain ⟨m₁, hs, hrest⟩ := exists_of_stepTimes_succ h
    have hfirst := ip_le_of_step hs
    have hlater := ih hrest
    rw [code_of_step hs] at hlater
    omega

/-- **The address and the steps back bound the number of instructions.** -/
theorem steps_add_ip_le (hcode : AllAccepted m.code) (h : stepTimes n m = some m') :
    m'.steps + m.ip ≤ m.steps + loopBacks n m * m.code.size + m'.ip := by
  induction n generalizing m with
  | zero =>
    cases h
    omega
  | succ n ih =>
    obtain ⟨m₁, hs, hrest⟩ := exists_of_stepTimes_succ h
    have hfirst := steps_add_ip_le_of_step hcode hs
    have hlater := ih (by rwa [code_of_step hs]) hrest
    rw [code_of_step hs] at hlater
    rw [loopBacks_succ hs, Nat.add_mul]
    omega

/-- Without a `WHILE` there is no way back. -/
theorem loopBacks_eq_zero (hloop : ∀ i ∈ m.code, i.op ≠ .loop) (h : stepTimes n m = some m') :
    loopBacks n m = 0 := by
  induction n generalizing m with
  | zero => rfl
  | succ n ih =>
    obtain ⟨m₁, hs, hrest⟩ := exists_of_stepTimes_succ h
    have hback : m.loopsBack = false := by
      rw [← Bool.not_eq_true, loopsBack_iff]
      rintro ⟨w, -, -, hw⟩
      obtain ⟨i, hi, hop⟩ := hw.exists_instr
      exact hloop i (Array.mem_of_getElem? hi) hop
    rw [loopBacks_succ hs, hback, ih (by rwa [code_of_step hs]) hrest]
    rfl

end Machine

namespace Program

open Machine

variable {p : Program}

/-- **Every cycle of a program without issues goes through a `WHILE`.**  A step that succeeds moves
the machine forward, or executes an `END` whose target is a `WHILE` before it; on a halted machine
it does nothing.  So a run that has gone back `b` times has executed at most `b + 1` times as many
instructions as the program has, and a program without a `WHILE` halts or faults within its
length. -/
theorem lint_bounds_runs (hp : p.lint = []) :
    (∀ m m' : Machine, m.code = p.code → m.step = (m', none) →
      (m.halted = true ∧ m' = m) ∨ m.ip < m'.ip ∨ ∃ w, m.LoopsBackTo w ∧ m'.ip = w) ∧
    (∀ (m m' : Machine) (n : Nat), m.code = p.code → stepTimes n m = some m' →
      m'.steps ≤ m.steps + (loopBacks n m + 1) * p.size) ∧
    ((∀ i ∈ p.code, i.op ≠ .loop) → ∀ m : Machine, m.code = p.code →
      (∃ n m', m.HaltsAfter n m' ∧ n ≤ p.size) ∨
        ∃ n m' f, m.FaultsAfter n m' f ∧ n < p.size) := by
  have hcode : Lint.AllAccepted p.code := (lint_eq_nil_iff.1 hp).2
  refine ⟨?_, ?_, ?_⟩
  · intro m m' hm hstep
    rw [← hm] at hcode
    exact step_forward_or_back hcode hstep
  · intro m m' n hm hrun
    rw [← hm] at hcode
    have hcost := steps_add_ip_le hcode hrun
    have hip := ip_le_of_stepTimes hrun
    rw [size, ← hm, Nat.add_mul]
    omega
  · intro hloop m hm
    rw [← hm] at hcode hloop
    rw [size, ← hm]
    obtain hhalts | hfaults | ⟨m', ⟨hrun, hsteps⟩, hrunning⟩ :=
      halts_or_faults_or_executes m m.code.size
    · exact .inl hhalts
    · exact .inr hfaults
    · -- so many instructions, none of them back, lead to the end of the program
      exfalso
      have hcost := steps_add_ip_le hcode hrun
      rw [loopBacks_eq_zero hloop hrun] at hcost
      have hlt : m'.ip < m.code.size := by
        simpa [halted, code_of_stepTimes hrun] using hrunning
      omega

/-- `TRUE WHILE DO FALSE END` goes back once in its seven steps; `TRUE IF PLUS END` has no way back,
and faults at its third step. -/
theorem lint_bounds_runs_once :
    let p : Program :=
      { code := #[⟨.pushTrue, 0⟩, ⟨.loop, 0⟩, ⟨.body, 5⟩, ⟨.pushFalse, 0⟩, ⟨.close, 1⟩]
        linked := true }
    let q : Program :=
      { code := #[⟨.pushTrue, 0⟩, ⟨.branch, 3⟩, ⟨.plus, 0⟩, ⟨.close, 4⟩], linked := true }
    let start (p : Program) : Machine := { code := p.code, out := .buffer "" }
    (p.lint = [] ∧ loopBacks 7 (start p) = 1 ∧
      ∃ m, stepTimes 7 (start p) = some m ∧ m.halted = true ∧ m.steps ≤ 0 + (1 + 1) * 5) ∧
    (q.lint = [] ∧ (∀ i ∈ q.code, i.op ≠ .loop) ∧
      ((∃ n m', HaltsAfter (start q) n m' ∧ n ≤ 4) ∨
        ∃ n m' f, FaultsAfter (start q) n m' f ∧ n < 4)) := by
  have hrun : stepTimes 7
      { code := #[⟨.pushTrue, 0⟩, ⟨.loop, 0⟩, ⟨.body, 5⟩, ⟨.pushFalse, 0⟩, ⟨.close, 1⟩]
        out := Sink.buffer "" } =
      some { code := #[⟨.pushTrue, 0⟩, ⟨.loop, 0⟩, ⟨.body, 5⟩, ⟨.pushFalse, 0⟩, ⟨.close, 1⟩]
             ip := 5, steps := 7, out := .buffer "" } := rfl
  have hback : loopBacks 7
      { code := #[⟨.pushTrue, 0⟩, ⟨.loop, 0⟩, ⟨.body, 5⟩, ⟨.pushFalse, 0⟩, ⟨.close, 1⟩]
        out := Sink.buffer "" } = 1 := by
    decide +kernel
  intro p q start
  have hp : p.lint = [] := by decide
  have hq : q.lint = [] := by decide
  have hloop : ∀ i ∈ q.code, i.op ≠ .loop := by decide
  have hbound := (lint_bounds_runs hp).2.1 _ _ 7 rfl hrun
  rw [hback] at hbound
  exact ⟨⟨hp, hback, _, hrun, rfl, hbound⟩, hq, hloop, (lint_bounds_runs hq).2.2 hloop _ rfl⟩

end Program

end StackLang

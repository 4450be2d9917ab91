import StackLang.Machine
import StackLang.Proofs.Loop

/-!
# Runs of a machine

`Machine.runFor` bounds the length of a run.  Here are the two views of a run that have no bound in
them: `Machine.stepTimes`, a number of instructions that all succeed, and `Machine.Ends`, how a
machine that is left to run comes to its end.  A bound that was enough stays enough
(`runFor_of_le`), so a machine ends in one way at most (`Ends.unique`), and instructions that
succeed do not change how it ends (`ends_of_stepTimes`).  How it ends is what `Machine.run` returns
(`Ends.run_eq`).
-/

set_option autoImplicit false

namespace StackLang.Machine

variable {σ ε : Type} [Writer σ ε] {m m' m'' : Machine σ} {f : Fault ε} {k n : Nat}

/-- Execute `k` instructions, unless one of them faults.  A halted machine stays as it is. -/
def stepTimes : (k : Nat) → Machine σ → Option (Machine σ)
  | 0, m => some m
  | k + 1, m =>
    match m.step with
    | (m', none) => stepTimes k m'
    | (_, some _) => none

/-- The machine after `k` steps, faulting ones included. -/
def after : (k : Nat) → Machine σ → Machine σ
  | 0, m => m
  | k + 1, m => after k m.step.1

/-- A machine that is left to run ends as `m'`, halted or at a fault. -/
def Ends (m m' : Machine σ) (s : Status ε) : Prop :=
  s ≠ .running ∧ ∃ n, m.runFor n = (m', s)

/-! ## Single steps -/

theorem halted_iff : m.halted = true ↔ m.next? = none := by
  rw [halted, next?, decide_eq_true_iff, Array.getElem?_eq_none_iff]

theorem not_halted_of_next? {i : Instr} (h : m.next? = some i) : m.halted = false := by
  rw [← Bool.not_eq_true, halted_iff, h]
  simp

theorem step_of_halted (h : m.halted = true) : m.step = (m, none) := by
  rw [step, halted_iff.1 h]

theorem not_halted_of_fault (h : m.step = (m', some f)) : m.halted = false := by
  rw [← Bool.not_eq_true]
  intro hm
  rw [step_of_halted hm] at h
  cases h

theorem step_eq {i : Instr} (hi : m.next? = some i) (h : m.exec i = (m', none)) :
    m.step = ({ m' with steps := m'.steps + 1 }, none) := by
  rw [step, hi]
  simp only [h]

theorem step_eq_fault {i : Instr} {c : FaultCause ε} (hi : m.next? = some i)
    (h : m.exec i = (m', some c)) : m.step = (m', some ⟨m.ip, i.op, c⟩) := by
  rw [step, hi]
  simp only [h]

/-! ## The number of instructions -/

theorem steps_binary (m : Machine σ) (f : Int64 → Int64 → Int64) :
    (m.binary f).1.steps = m.steps := by
  rw [binary]
  split <;> rfl

theorem steps_duplicate (m : Machine σ) : m.duplicate.1.steps = m.steps := by
  rw [duplicate]
  split <;> rfl

theorem steps_jump (m : Machine σ) (target : Int64) : (m.jump target).1.steps = m.steps := by
  rw [jump]
  split <;> rfl

theorem steps_jumpUnless (m : Machine σ) (target : Int64) :
    (m.jumpUnless target).1.steps = m.steps := by
  rw [jumpUnless]
  split
  · rfl
  · split
    · exact steps_jump _ target
    · rfl

theorem steps_dump (m : Machine σ) : m.dump.1.steps = m.steps := by
  obtain ⟨code, ip, stack, memory, out, steps⟩ := m
  cases stack with
  | nil => rfl
  | cons a rest =>
    rw [dump]
    rcases Writer.write out (toString a ++ "\n") with ⟨out', _ | _⟩ <;> rfl

theorem steps_exec (m : Machine σ) (i : Instr) : (m.exec i).1.steps = m.steps := by
  obtain ⟨op, imm⟩ := i
  cases op with
  | push | pushTrue | pushFalse | mem | loop | undefined k => rfl
  | plus | minus | equal | greater => exact steps_binary m _
  | dupl => exact steps_duplicate m
  | dump => exact steps_dump m
  | branch | body => exact steps_jumpUnless m imm
  | otherwise | close => exact steps_jump m imm

theorem steps_of_step (hm : m.halted = false) (h : m.step = (m', none)) :
    m'.steps = m.steps + 1 := by
  cases hi : m.next? with
  | none => simp [halted_iff.2 hi] at hm
  | some i =>
    rcases hexec : m.exec i with ⟨m₁, _ | c⟩
    · rw [step_eq hi hexec] at h
      cases h
      rw [← steps_exec m i, hexec]
    · rw [step_eq_fault hi hexec] at h
      cases h

theorem steps_of_fault (h : m.step = (m', some f)) : m'.steps = m.steps := by
  cases hi : m.next? with
  | none => cases (step_of_halted (halted_iff.2 hi)).symm.trans h
  | some i =>
    rcases hexec : m.exec i with ⟨m₁, _ | c⟩
    · cases (step_eq hi hexec).symm.trans h
    · rw [step_eq_fault hi hexec] at h
      cases h
      rw [← steps_exec m i, hexec]

/-! ## Instructions that succeed -/

theorem stepTimes_succ (h : m.step = (m', none)) (k : Nat) :
    stepTimes (k + 1) m = stepTimes k m' := by
  rw [stepTimes, h]

theorem exists_of_stepTimes_succ (h : stepTimes (k + 1) m = some m') :
    ∃ m₁, m.step = (m₁, none) ∧ stepTimes k m₁ = some m' := by
  rw [stepTimes] at h
  rcases hs : m.step with ⟨m₁, _ | f⟩ <;> rw [hs] at h
  · exact ⟨m₁, rfl, h⟩
  · cases h

theorem stepTimes_add (j k : Nat) (m : Machine σ) :
    stepTimes (j + k) m = (stepTimes j m).bind (stepTimes k) := by
  induction j generalizing m with
  | zero => rw [Nat.zero_add]; rfl
  | succ j ih =>
    rw [Nat.add_right_comm, stepTimes, stepTimes]
    rcases m.step with ⟨m', _ | f⟩
    · exact ih m'
    · rfl

/-! ## Bounded runs -/

theorem runFor_of_halted (h : m.halted = true) (n : Nat) : m.runFor n = (m, .halted) := by
  cases n with
  | zero => rw [runFor, if_pos h]
  | succ n => rw [runFor, if_pos h]

theorem runFor_succ (hm : m.halted = false) (h : m.step = (m', none)) (n : Nat) :
    m.runFor (n + 1) = m'.runFor n := by
  rw [runFor, if_neg (by simp [hm]), h]

theorem runFor_fault (h : m.step = (m', some f)) (n : Nat) :
    m.runFor (n + 1) = (m', .faulted f) := by
  rw [runFor, if_neg (by simp [not_halted_of_fault h]), h]

/-- Instructions that succeed use up as much of the bound. -/
theorem runFor_stepTimes (h : stepTimes k m = some m') (n : Nat) :
    m.runFor (k + n) = m'.runFor n := by
  induction k generalizing m with
  | zero => cases h; rw [Nat.zero_add]
  | succ k ih =>
    rw [Nat.add_right_comm]
    by_cases hm : m.halted = true
    · -- a halted machine is its own successor, whatever the bound
      rw [stepTimes_succ (step_of_halted hm)] at h
      rw [← ih h, runFor_of_halted hm, runFor_of_halted hm]
    · rcases hs : m.step with ⟨m₁, _ | f⟩
      · rw [stepTimes_succ hs] at h
        rw [runFor_succ (by simpa using hm) hs, ih h]
      · rw [stepTimes, hs] at h
        cases h

/-- A bound that was enough stays enough. -/
theorem runFor_of_le (h : (m.runFor n).2 ≠ .running) (hk : n ≤ k) : m.runFor k = m.runFor n := by
  induction n generalizing m k with
  | zero =>
    by_cases hm : m.halted = true
    · rw [runFor_of_halted hm, runFor_of_halted hm]
    · rw [runFor, if_neg hm] at h
      exact absurd rfl h
  | succ n ih =>
    obtain ⟨k, rfl⟩ : ∃ j, k = j + 1 := ⟨k - 1, by omega⟩
    by_cases hm : m.halted = true
    · rw [runFor_of_halted hm, runFor_of_halted hm]
    · rcases hs : m.step with ⟨m₁, _ | f⟩
      · rw [runFor_succ (by simpa using hm) hs] at h
        rw [runFor_succ (by simpa using hm) hs, runFor_succ (by simpa using hm) hs]
        exact ih h (by omega)
      · rw [runFor_fault hs, runFor_fault hs]

theorem running_of_le (h : (m.runFor n).2 = .running) (hk : k ≤ n) :
    (m.runFor k).2 = .running :=
  Classical.byContradiction fun hne => hne (runFor_of_le hne hk ▸ h)

theorem running_of_stepTimes (h : stepTimes k m = some m') (hn : (m'.runFor n).2 = .running) :
    (m.runFor n).2 = .running :=
  running_of_le (runFor_stepTimes h n ▸ hn) (Nat.le_add_left n k)

theorem running_of_step (h : m.step = (m', none)) (hn : (m'.runFor n).2 = .running) :
    (m.runFor (n + 1)).2 = .running := by
  have h1 : stepTimes 1 m = some m' := stepTimes_succ h 0
  rw [Nat.add_comm, runFor_stepTimes h1]
  exact hn

/-! ## Ends of runs -/

theorem ends_of_halted (h : m.halted = true) : m.Ends m .halted :=
  ⟨by simp, 0, runFor_of_halted h 0⟩

theorem ends_of_fault (h : m.step = (m', some f)) : m.Ends m' (.faulted f) :=
  ⟨by simp, 1, runFor_fault h 0⟩

theorem ends_of_stepTimes {s : Status ε} (h : stepTimes k m = some m') (he : m'.Ends m'' s) :
    m.Ends m'' s := by
  obtain ⟨hs, n, hn⟩ := he
  exact ⟨hs, k + n, (runFor_stepTimes h n).trans hn⟩

/-- A machine that halts gets there by instructions that succeed. -/
theorem Ends.exists_stepTimes (h : m.Ends m' .halted) :
    ∃ k, stepTimes k m = some m' ∧ m'.halted = true := by
  obtain ⟨-, n, hn⟩ := h
  induction n generalizing m with
  | zero =>
    by_cases hm : m.halted = true
    · cases (runFor_of_halted hm 0).symm.trans hn
      exact ⟨0, rfl, hm⟩
    · rw [runFor, if_neg hm] at hn
      cases hn
  | succ n ih =>
    by_cases hm : m.halted = true
    · cases (runFor_of_halted hm _).symm.trans hn
      exact ⟨0, rfl, hm⟩
    · rcases hs : m.step with ⟨m₁, _ | f⟩
      · rw [runFor_succ (by simpa using hm) hs] at hn
        obtain ⟨k, hk, hm'⟩ := ih hn
        exact ⟨k + 1, (stepTimes_succ hs k).trans hk, hm'⟩
      · cases (runFor_fault hs n).symm.trans hn

/-- A machine ends in one way at most. -/
theorem Ends.unique {s s' : Status ε} (h : m.Ends m' s) (h' : m.Ends m'' s') :
    m' = m'' ∧ s = s' := by
  obtain ⟨hs, n, hn⟩ := h
  obtain ⟨hs', n', hn'⟩ := h'
  have h₁ : m.runFor (max n n') = (m', s) :=
    (runFor_of_le (by rw [hn]; exact hs) (Nat.le_max_left n n')).trans hn
  have h₂ : m.runFor (max n n') = (m'', s') :=
    (runFor_of_le (by rw [hn']; exact hs') (Nat.le_max_right n n')).trans hn'
  exact Prod.mk.inj (h₁.symm.trans h₂)

theorem round_of_halted (h : m.halted = true) : m.round = .inr (m, .halted) := by
  rw [round, if_pos h]

theorem round_succ (hm : m.halted = false) (h : m.step = (m', none)) : m.round = .inl m' := by
  rw [round, hm, h]
  rfl

theorem round_fault (h : m.step = (m', some f)) : m.round = .inr (m', .faulted f) := by
  rw [round, not_halted_of_fault h, h]
  rfl

/-- A machine that ends does so after some rounds. -/
theorem Ends.loop {s : Status ε} (h : m.Ends m' s) : Loop round m (m', s) := by
  obtain ⟨hs, n, hn⟩ := h
  induction n generalizing m with
  | zero =>
    by_cases hm : m.halted = true
    · cases (runFor_of_halted hm 0).symm.trans hn
      exact .stop (round_of_halted hm)
    · rw [runFor, if_neg hm] at hn
      cases hn
      exact absurd rfl hs
  | succ n ih =>
    by_cases hm : m.halted = true
    · cases (runFor_of_halted hm _).symm.trans hn
      exact .stop (round_of_halted hm)
    · rw [Bool.not_eq_true] at hm
      rcases hstep : m.step with ⟨m₁, _ | f⟩
      · exact .go (round_succ hm hstep) (ih ((runFor_succ hm hstep n).symm.trans hn))
      · cases (runFor_fault hstep n).symm.trans hn
        exact .stop (round_fault hstep)

/-- A run comes to the end that the machine has. -/
theorem Ends.run_eq {s : Status ε} (h : m.Ends m' s) : m.run = (m', s) :=
  have : Nonempty (Machine σ) := ⟨m⟩
  h.loop.repeatM_eq

theorem steps_le_of_runFor {s : Status ε} (h : m.runFor n = (m', s)) : m.steps ≤ m'.steps := by
  induction n generalizing m with
  | zero =>
    rw [runFor] at h
    cases h
    exact Nat.le_refl _
  | succ n ih =>
    by_cases hm : m.halted = true
    · cases (runFor_of_halted hm _).symm.trans h
      exact Nat.le_refl _
    · rcases hstep : m.step with ⟨m₁, _ | f⟩
      · have hle := ih ((runFor_succ (by simpa using hm) hstep n).symm.trans h)
        have hone := steps_of_step (by simpa using hm) hstep
        omega
      · cases (runFor_fault hstep n).symm.trans h
        exact Nat.le_of_eq (steps_of_fault hstep).symm

/-- A machine that ends does not run for ever. -/
theorem Ends.not_running {s : Status ε} (h : m.Ends m' s) : ∃ n, (m.runFor n).2 ≠ .running := by
  obtain ⟨hs, n, hn⟩ := h
  exact ⟨n, by rw [hn]; exact hs⟩

end StackLang.Machine

import StackLang.Interpret
import StackLang.Proofs.Machine.Effect

/-!
# Runs with a budget

A machine that is left to run halts after some number of instructions, faults after some number of
them, or goes on for ever (`halts_or_faults_or_executes`).  `Program.interpret` stops such a run
when its budget is used up, and only then: a program that halts with the last instruction of the
budget has halted, and one that would fault at the next has not faulted
(`interpret_follows_run`).
-/

set_option autoImplicit false

namespace StackLang

namespace Machine

variable {m m' m'' : Machine} {f : Fault} {k n : Nat}

/-- `n` instructions, all of them executed and none with a fault, lead from `m` to `m'`. -/
def Executes (m : Machine) (n : Nat) (m' : Machine) : Prop :=
  stepTimes n m = some m' ∧ m'.steps = m.steps + n

/-- Left to run, `m` halts as `m'` after `n` instructions. -/
def HaltsAfter (m : Machine) (n : Nat) (m' : Machine) : Prop :=
  m.Executes n m' ∧ m'.halted = true

/-- Left to run, `m` comes to `m'` after `n` instructions, and the next one is the fault `f`. -/
def FaultsAfter (m : Machine) (n : Nat) (m' : Machine) (f : Fault) : Prop :=
  m.Executes n m' ∧ m'.step.2 = some f

/-! ## How far a run comes -/

theorem executes_zero (m : Machine) : m.Executes 0 m := ⟨rfl, rfl⟩

theorem Executes.succ (h : m.Executes n m') (hm : m'.halted = false) (hs : m'.step = (m'', none)) :
    m.Executes (n + 1) m'' := by
  obtain ⟨hrun, hsteps⟩ := h
  constructor
  · rw [stepTimes_add, hrun]
    exact stepTimes_succ hs 0
  · rw [steps_of_step hm hs, hsteps, Nat.add_assoc]

/-- Within `k` instructions a machine halts or faults; else it executes all of them and goes on. -/
theorem halts_or_faults_or_executes (m : Machine) (k : Nat) :
    (∃ n m', m.HaltsAfter n m' ∧ n ≤ k) ∨ (∃ n m' f, m.FaultsAfter n m' f ∧ n < k) ∨
      ∃ m', m.Executes k m' ∧ m'.halted = false := by
  induction k with
  | zero =>
    by_cases hm : m.halted = true
    · exact .inl ⟨0, m, ⟨executes_zero m, hm⟩, Nat.le_refl 0⟩
    · exact .inr (.inr ⟨m, executes_zero m, by simpa using hm⟩)
  | succ k ih =>
    obtain ⟨n, m', hhalts, hn⟩ | ⟨n, m', f, hfaults, hn⟩ | ⟨m', hexec, hm'⟩ := ih
    · exact .inl ⟨n, m', hhalts, by omega⟩
    · exact .inr (.inl ⟨n, m', f, hfaults, by omega⟩)
    · rcases hs : m'.step with ⟨m'', _ | f⟩
      · have hnext := hexec.succ hm' hs
        by_cases hm'' : m''.halted = true
        · exact .inl ⟨k + 1, m'', ⟨hnext, hm''⟩, Nat.le_refl _⟩
        · exact .inr (.inr ⟨m'', hnext, by simpa using hm''⟩)
      · exact .inr (.inl ⟨k, m', f, ⟨hexec, by rw [hs]⟩, Nat.lt_succ_self k⟩)

/-! ## Bounded runs -/

theorem HaltsAfter.runFor_eq (h : m.HaltsAfter n m') (hk : n ≤ k) :
    m.runFor k = (m', .halted) := by
  obtain ⟨⟨hrun, -⟩, hm'⟩ := h
  obtain ⟨j, rfl⟩ := Nat.exists_eq_add_of_le hk
  rw [runFor_stepTimes hrun, runFor_of_halted hm']

theorem FaultsAfter.runFor_eq (h : m.FaultsAfter n m' f) (hk : n < k) :
    m.runFor k = (m'.step.1, .faulted f) := by
  obtain ⟨⟨hrun, -⟩, hf⟩ := h
  obtain ⟨j, rfl⟩ := Nat.exists_eq_add_of_lt hk
  rw [Nat.add_assoc, runFor_stepTimes hrun]
  exact runFor_fault (Prod.ext rfl hf) j

theorem Executes.runFor_eq (h : m.Executes k m') (hm' : m'.halted = false) :
    m.runFor k = (m', .running) := by
  have hrun := runFor_stepTimes h.1 0
  rwa [Nat.add_zero, runFor, if_neg (by simp [hm'])] at hrun

/-! ## What has been written -/

theorem Executes.out_eq {t : String} (h : m.Executes n m') (ht : m.out = .buffer t) :
    ∃ o, m'.out = .buffer (t ++ o) := by
  obtain ⟨lines, hlines, -⟩ := stepTimes_above h.1
  rw [ht, Writer.writeAll?_buffer] at hlines
  exact ⟨_, (Option.some_inj.1 hlines).symm⟩

/-- A fault of a machine that keeps everything written is none of its output. -/
theorem out_fault_of_buffer {t : String} (ht : m.out = .buffer t) (hf : m.step.2 = some f) :
    m.step.1.out = .buffer t := by
  have hs : m.step = (m.step.1, some f) := Prod.ext rfl hf
  obtain ⟨i, c, stack, out, -, hfails, -, hleft⟩ := step_fault_cases hs
  rw [hleft]
  cases hfails with
  | combine | empty | jump | zero | undefined => exact ht
  | refused _ _ hwrite =>
    rw [ht] at hwrite
    cases hwrite

/-- A run only adds to what has been written. -/
theorem out_runFor {t : String} (ht : m.out = .buffer t) (k : Nat) :
    ∃ o, (m.runFor k).1.out = .buffer (t ++ o) := by
  obtain ⟨n, m', h, hn⟩ | ⟨n, m', f, h, hn⟩ | ⟨m', h, hm'⟩ := halts_or_faults_or_executes m k
  · rw [h.runFor_eq hn]
    exact h.1.out_eq ht
  · rw [h.runFor_eq hn]
    obtain ⟨o, ho⟩ := h.1.out_eq ht
    exact ⟨o, out_fault_of_buffer ho h.2⟩
  · rw [h.runFor_eq hm']
    exact h.out_eq ht

/-- **A longer run adds to what a shorter one has written.** -/
theorem out_runFor_add {t : String} (ht : m.out = .buffer t) (k j : Nat) :
    ∃ o, (m.runFor (k + j)).1.out.text = (m.runFor k).1.out.text ++ o := by
  by_cases hk : (m.runFor k).2 = .running
  · obtain ⟨n, m', h, hn⟩ | ⟨n, m', f, h, hn⟩ | ⟨m', h, hm'⟩ := halts_or_faults_or_executes m k
    · rw [h.runFor_eq hn] at hk
      cases hk
    · rw [h.runFor_eq hn] at hk
      cases hk
    · obtain ⟨o, ho⟩ := h.out_eq ht
      obtain ⟨o', ho'⟩ := out_runFor ho j
      rw [runFor_stepTimes h.1, h.runFor_eq hm', ho', ho]
      exact ⟨o', rfl⟩
  · rw [runFor_of_le hk (Nat.le_add_right k j)]
    exact ⟨"", by simp⟩

end Machine

/-! ## Programs with a budget -/

/-- The error of a bounded run that ended like this. -/
def Machine.Status.runError? : Machine.Status → Option RunError
  | .halted => none
  | .faulted f => some (.fault f)
  | .running => some .stepLimit

namespace Program

open Machine

variable {p : Program} {m m' : Machine} {f : Fault} {k n : Nat}

theorem interpret_eq (hm : ofProgram? p (Sink.buffer "") = some m) (k : Nat) :
    p.interpret k =
      ⟨(m.runFor k).1.out.text, (m.runFor k).1.steps, (m.runFor k).2.runError?⟩ := by
  simp only [interpret, hm]
  rcases m.runFor k with ⟨m', _ | f | _⟩ <;> rfl

/-- A machine about to start has written nothing and executed nothing. -/
theorem start_of_ofProgram? (hm : ofProgram? p (Sink.buffer "") = some m) :
    m.out = .buffer "" ∧ m.steps = 0 := by
  rw [ofProgram?] at hm
  split at hm <;> cases hm
  exact ⟨rfl, rfl⟩

theorem interpret_of_haltsAfter (hm : ofProgram? p (Sink.buffer "") = some m)
    (h : m.HaltsAfter n m') (hk : n ≤ k) : p.interpret k = ⟨m'.out.text, n, none⟩ := by
  rw [interpret_eq hm, h.runFor_eq hk, h.1.2, (start_of_ofProgram? hm).2, Nat.zero_add]
  rfl

theorem interpret_of_faultsAfter (hm : ofProgram? p (Sink.buffer "") = some m)
    (h : m.FaultsAfter n m' f) (hk : n < k) :
    p.interpret k = ⟨m'.out.text, n, some (.fault f)⟩ := by
  obtain ⟨hout, hsteps⟩ := start_of_ofProgram? hm
  obtain ⟨o, ho⟩ := h.1.out_eq hout
  have hfault : m'.step = (m'.step.1, some f) := Prod.ext rfl h.2
  rw [interpret_eq hm, h.runFor_eq hk, steps_of_fault hfault, h.1.2, hsteps, Nat.zero_add,
    out_fault_of_buffer ho h.2, ho]
  rfl

theorem interpret_of_executes (hm : ofProgram? p (Sink.buffer "") = some m)
    (h : m.Executes k m') (hm' : m'.halted = false) :
    p.interpret k = ⟨m'.out.text, k, some .stepLimit⟩ := by
  rw [interpret_eq hm, h.runFor_eq hm', h.2, (start_of_ofProgram? hm).2, Nat.zero_add]
  rfl

/-- **A bounded run is the beginning of the run without a bound.**  Let a linked program be run with
a budget of `k` instructions.  If the run halts after at most `k` of them, its whole output and the
number of instructions come back; if it faults after fewer than `k`, what it has written by then,
their number and the fault; in all other cases what it has written after exactly `k` instructions,
and that the budget is used up.  So a larger budget adds to the output, and changes nothing once the
budget was enough. -/
theorem interpret_follows_run (hp : p.linked = true) :
    ∃ m, ofProgram? p (Sink.buffer "") = some m ∧
      (∀ k n m', m.HaltsAfter n m' → n ≤ k →
        m.run = (m', .halted) ∧ p.interpret k = ⟨m'.out.text, n, none⟩) ∧
      (∀ k n m' f, m.FaultsAfter n m' f → n < k →
        m.run = (m'.step.1, .faulted f) ∧
          p.interpret k = ⟨m'.out.text, n, some (.fault f)⟩) ∧
      (∀ k, (¬ ∃ n m', m.HaltsAfter n m' ∧ n ≤ k) → (¬ ∃ n m' f, m.FaultsAfter n m' f ∧ n < k) →
        ∃ m', m.Executes k m' ∧ p.interpret k = ⟨m'.out.text, k, some .stepLimit⟩) ∧
      (∀ k k', k ≤ k' → ∃ o, (p.interpret k').out = (p.interpret k).out ++ o) ∧
      ∀ k k', k ≤ k' → (p.interpret k).error ≠ some .stepLimit →
        p.interpret k' = p.interpret k := by
  have hm : ofProgram? p (Sink.buffer "") = some { code := p.code, out := .buffer "" } := by
    rw [ofProgram?, if_pos hp]
  refine ⟨_, hm, ?_, ?_, ?_, ?_, ?_⟩
  · intro k n m' h hk
    have hends : Ends _ m' .halted := ⟨by simp, k, h.runFor_eq hk⟩
    exact ⟨hends.run_eq, interpret_of_haltsAfter hm h hk⟩
  · intro k n m' f h hk
    have hends : Ends _ m'.step.1 (.faulted f) := ⟨by simp, k, h.runFor_eq hk⟩
    exact ⟨hends.run_eq, interpret_of_faultsAfter hm h hk⟩
  · intro k hhalts hfaults
    obtain h | h | ⟨m', hexec, hm'⟩ :=
      halts_or_faults_or_executes { code := p.code, out := .buffer "" } k
    · exact absurd h hhalts
    · exact absurd h hfaults
    · exact ⟨m', hexec, interpret_of_executes hm hexec hm'⟩
  · intro k k' hk
    obtain ⟨j, rfl⟩ := Nat.exists_eq_add_of_le hk
    rw [interpret_eq hm, interpret_eq hm]
    exact out_runFor_add rfl k j
  · intro k k' hk herror
    rw [interpret_eq hm] at herror
    rw [interpret_eq hm, interpret_eq hm, runFor_of_le _ hk]
    intro hrunning
    rw [hrunning] at herror
    exact herror rfl

/-- `PUSH 7 DUMP` halts with its second instruction; with a `PLUS` behind it, it faults at the
third. -/
theorem interpret_follows_run_limits :
    let p : Program := { code := #[⟨.push, 7⟩, ⟨.dump, 0⟩], linked := true }
    let q : Program := { code := #[⟨.push, 7⟩, ⟨.dump, 0⟩, ⟨.plus, 0⟩], linked := true }
    p.linked = true ∧ q.linked = true ∧
      p.interpret 0 = ⟨"", 0, some .stepLimit⟩ ∧ p.interpret 1 = ⟨"", 1, some .stepLimit⟩ ∧
      (∀ k, 2 ≤ k → p.interpret k = ⟨"7\n", 2, none⟩) ∧
      q.interpret 2 = ⟨"7\n", 2, some .stepLimit⟩ ∧
      ∀ k, 2 < k → q.interpret k = ⟨"7\n", 2, some (.fault ⟨2, .plus, .stackUnderflow⟩)⟩ := by
  have hlast : HaltsAfter { code := #[⟨.push, 7⟩, ⟨.dump, 0⟩], out := .buffer "" } 2
      { code := #[⟨.push, 7⟩, ⟨.dump, 0⟩], ip := 2, out := .buffer "7\n", steps := 2 } :=
    ⟨⟨rfl, rfl⟩, rfl⟩
  have hnext : FaultsAfter
      { code := #[⟨.push, 7⟩, ⟨.dump, 0⟩, ⟨.plus, 0⟩], out := .buffer "" } 2
      { code := #[⟨.push, 7⟩, ⟨.dump, 0⟩, ⟨.plus, 0⟩], ip := 2, out := .buffer "7\n", steps := 2 }
      ⟨2, .plus, .stackUnderflow⟩ :=
    ⟨⟨rfl, rfl⟩, rfl⟩
  intro p q
  obtain ⟨_, hp, hhalts, -⟩ := interpret_follows_run (p := p) rfl
  obtain ⟨_, hq, -, hfaults, -⟩ := interpret_follows_run (p := q) rfl
  cases hp
  cases hq
  refine ⟨rfl, rfl, rfl, rfl, ?_, by decide, ?_⟩
  · intro k hk
    exact (hhalts k 2 _ hlast hk).2
  · intro k hk
    exact (hfaults k 2 _ _ hnext hk).2

end Program

end StackLang

import StackLang.Proofs.Machine.Effect

/-!
# What a fault leaves behind

An instruction takes its operands one by one, and may find out after the first that it cannot go on.
`Machine.Fails` lists the ways; they are all possible (`exec_fault_iff`), and in each of them the
machine that is left differs from the one before in its topmost operand and its writer at most.
`Machine.LosesTop` says when the operand is gone.

The writer is asked by `DUMP` alone, and a `DUMP` that has an operand faults only because the writer
has not taken the line.  So every other fault happens in the same way with any writer of any kind
(`Fails.withWriter`), be it one that keeps count of what it is asked for, which is how we say that
nothing was written.
-/

set_option autoImplicit false

namespace StackLang.Machine

variable {σ ε : Type} [Writer σ ε] {m m' : Machine σ} {i : Instr} {c : FaultCause ε}
  {stack : List Int64} {out : σ}

/-! ## All ways to fault -/

theorem binary_of_length_lt {f : Int64 → Int64 → Int64} (h : m.stack.length < 2) :
    m.binary f = ({ m with stack := [] }, some .stackUnderflow) := by
  rw [binary]
  split
  · rename_i a b rest hstack
    rw [hstack, List.length_cons, List.length_cons] at h
    omega
  · rfl

theorem jump_outside {target : Int64} (h : ¬ (0 ≤ target.toInt ∧ target.toInt ≤ m.code.size)) :
    m.jump target = (m, some .badJump) := by
  rw [jump, if_neg h]

/-- Each of the ways to fault is one that the instruction takes. -/
theorem exec_of_fails (h : Fails m i c stack out) :
    m.exec i = ({ m with stack := stack, out := out }, some c) := by
  cases h with
  | combine hf hlen => rw [exec_combined hf, binary_of_length_lt hlen]
  | empty hop hstack =>
    obtain ⟨code, ip, _ | ⟨a, rest⟩, memory, out, steps⟩ := m
    · rcases hop with hop | hop | hop | hop <;> rw [exec, hop] <;> rfl
    · cases hstack
  | jump hop hout => rw [exec_goto hop, jump_outside hout]
  | zero hop hstack hout =>
    rw [exec_condition hop, jumpUnless, hstack]
    exact jump_outside (m := { m with stack := stack }) hout
  | refused hop hstack hwrite =>
    obtain ⟨code, ip, operands, memory, sink, steps⟩ := m
    cases hstack
    rw [exec, hop]
    simp only [dump, hwrite]
  | undefined hop =>
    obtain ⟨op, imm⟩ := i
    cases op with
    | undefined k => rfl
    | _ => cases hop

/-- **An instruction faults exactly in one of the ways listed.** -/
theorem exec_fault_iff :
    m.exec i = (m', some c) ↔
      ∃ stack out, Fails m i c stack out ∧ m' = { m with stack := stack, out := out } := by
  refine ⟨exists_fails_of_exec, ?_⟩
  rintro ⟨stack, out, hfails, rfl⟩
  exact exec_of_fails hfails

theorem step_of_fails (hi : m.next? = some i) (h : Fails m i c stack out) :
    m.step = ({ m with stack := stack, out := out }, some ⟨m.ip, i.op, c⟩) :=
  step_eq_fault hi (exec_fault_iff.2 ⟨stack, out, h, rfl⟩)

/-! ## The writer -/

theorem Fails.out_eq (h : Fails m i c stack out) (hc : ∀ e, c ≠ .output e) : out = m.out := by
  cases h with
  | refused => exact absurd rfl (hc _)
  | combine | empty | jump | zero | undefined => rfl

/-- A fault that is not the writer's own does not depend on the writer. -/
theorem Fails.withWriter {τ : Type} [Writer τ ε] (h : Fails m i c stack out)
    (hc : ∀ e, c ≠ .output e) (k : τ) : Fails { m with out := k } i c stack k := by
  cases h with
  | combine hf hlen => exact .combine hf hlen
  | empty hop hstack => exact .empty hop hstack
  | jump hop hout => exact .jump hop hout
  | zero hop hstack hout => exact .zero hop hstack hout
  | refused => exact absurd rfl (hc _)
  | undefined hop => exact .undefined hop

/-- The writer has not taken the line of the topmost operand. -/
theorem Fails.write_eq {e : ε} (h : Fails m i (.output e) stack out) :
    i.op = .dump ∧
      ∃ a, m.stack = a :: stack ∧ Writer.write m.out (toString a ++ "\n") = (out, some e) := by
  cases h with
  | refused hop hstack hwrite => exact ⟨hop, _, hstack, hwrite⟩

/-! ## The operands -/

/-- When an instruction that faults has taken its first operand before: an operation on two
operands that finds only one; a condition that is 0 and a target outside the program; a line that
the writer does not take. -/
def LosesTop (m : Machine σ) (i : Instr) : Prop :=
  (i.op.combined?.isSome = true ∧ m.stack.length = 1) ∨
  ((i.op = .branch ∨ i.op = .body) ∧ m.stack.head? = some 0 ∧
    ¬ (0 ≤ i.imm.toInt ∧ i.imm.toInt ≤ m.code.size)) ∨
  (i.op = .dump ∧ ∃ a, m.stack.head? = some a ∧
    (Writer.write m.out (toString a ++ "\n")).2 ≠ none)

/-- The topmost operand is gone exactly if the instruction loses it. -/
theorem Fails.stack_cases (h : Fails m i c stack out) :
    (m.LosesTop i ∧ ∃ a, m.stack = a :: stack) ∨ (¬ m.LosesTop i ∧ stack = m.stack) := by
  cases h with
  | combine hf hlen =>
    rcases hstack : m.stack with _ | ⟨a, _ | ⟨b, rest⟩⟩
    · refine .inr ⟨?_, rfl⟩
      simp [LosesTop, hstack]
    · exact .inl ⟨.inl ⟨by simp [hf], by simp [hstack]⟩, a, rfl⟩
    · rw [hstack, List.length_cons, List.length_cons] at hlen
      omega
  | empty hop hstack =>
    refine .inr ⟨?_, rfl⟩
    simp [LosesTop, hstack]
  | jump hop hout =>
    refine .inr ⟨?_, rfl⟩
    rcases hop with hop | hop <;> simp [LosesTop, hop, Op.combined?]
  | zero hop hstack hout =>
    exact .inl ⟨.inr (.inl ⟨hop, by simp [hstack], hout⟩), 0, hstack⟩
  | @refused a _ _ e hop hstack hwrite =>
    exact .inl ⟨.inr (.inr ⟨hop, a, by rw [hstack]; rfl, by rw [hwrite]; simp⟩), a, hstack⟩
  | undefined hop =>
    refine .inr ⟨?_, rfl⟩
    obtain ⟨op, imm⟩ := i
    cases op with
    | undefined k => simp [LosesTop, Op.combined?]
    | _ => cases hop

/-- **A fault takes the topmost operand at most.**  Let a step of a machine fault, whatever its
code, its operands and its writer are, and however it came to them.  The fault names the address and
the operation of the machine's next instruction.  Apart from the operands and the writer the machine
is as it was; of the operands the topmost one is gone where the instruction loses it, and none in
all other cases.  If the cause is an error of the writer, this has been given the line of the
topmost operand, once, and that is the error it came back with.  If not, the writer is as it was,
and the same step faults in the same way with any writer of any kind, and leaves that as it is. -/
theorem fault_takes_at_most_top {f : Fault ε} (h : m.step = (m', some f)) :
    ∃ i, m.next? = some i ∧ f.addr = m.ip ∧ f.op = i.op ∧
      m' = { m with stack := m'.stack, out := m'.out } ∧
      (m.LosesTop i → ∃ a, m.stack = a :: m'.stack) ∧
      (¬ m.LosesTop i → m'.stack = m.stack) ∧
      (∀ e, f.cause = .output e → i.op = .dump ∧ ∃ a, m.stack = a :: m'.stack ∧
        Writer.write m.out (toString a ++ "\n") = (m'.out, some e)) ∧
      ((∀ e, f.cause ≠ .output e) → m'.out = m.out ∧
        ∀ {τ : Type} [Writer τ ε] (k : τ),
          ({ m with out := k } : Machine τ).step = ({ m' with out := k }, some f)) := by
  obtain ⟨i, c, stack, out, hi, hfails, rfl, rfl⟩ := step_fault_cases h
  refine ⟨i, hi, rfl, rfl, rfl, ?_, ?_, ?_, ?_⟩
  · intro hloses
    obtain ⟨-, htop⟩ | ⟨hkeeps, -⟩ := hfails.stack_cases
    · exact htop
    · exact absurd hloses hkeeps
  · intro hkeeps
    obtain ⟨hloses, -⟩ | ⟨-, hstack⟩ := hfails.stack_cases
    · exact absurd hloses hkeeps
    · exact hstack
  · rintro e rfl
    exact hfails.write_eq
  · intro hc
    refine ⟨hfails.out_eq hc, fun k => ?_⟩
    exact step_of_fails (m := { m with out := k }) hi (hfails.withWriter hc k)

/-- A writer that keeps every line, and complains about the first one all the same. -/
structure Grudging where
  lines : List String := []

instance : Writer Grudging String where
  write k s := (⟨k.lines ++ [s]⟩, if k.lines.isEmpty then some "not yet" else none)

/-- A `DO` out of the program takes its condition, in the same way with every writer.  A `DUMP` of
42 to a writer that complains about its first line takes its operand; the writer has kept the line
and takes the next one, so the machine goes on from there. -/
theorem fault_takes_at_most_top_loop :
    let code : Array Instr := #[⟨.loop, 0⟩, ⟨.body, 9⟩, ⟨.dump, 0⟩]
    let m : Machine Grudging := { code, ip := 1, stack := [0, 5], out := {}, steps := 1 }
    let d : Machine Grudging := { code, ip := 2, stack := [42, 5], out := {}, steps := 2 }
    (m.step = ({ m with stack := [5] }, some ⟨1, .body, .badJump⟩) ∧
      ∀ {τ : Type} [Writer τ String] (k : τ), ({ m with out := k } : Machine τ).step =
        ({ m with stack := [5], out := k }, some ⟨1, .body, .badJump⟩)) ∧
    (d.step = ({ d with stack := [5], out := ⟨["42\n"]⟩ }, some ⟨2, .dump, .output "not yet"⟩) ∧
      (∃ a, d.stack = a :: [5] ∧
        Writer.write d.out (toString a ++ "\n") = (⟨["42\n"]⟩, some "not yet")) ∧
      d.step.1.step.2 = none) := by
  intro code m d
  have hm : m.step = ({ m with stack := [5] }, some ⟨1, .body, .badJump⟩) :=
    step_of_fails (m := m) (i := ⟨.body, 9⟩) rfl (.zero (.inr rfl) rfl (by decide))
  have hwrite : Writer.write d.out (toString (42 : Int64) ++ "\n") =
      (⟨["42\n"]⟩, some "not yet") := by
    have hline : toString (42 : Int64) ++ "\n" = "42\n" := by decide
    rw [hline]
    rfl
  have hd : d.step =
      ({ d with stack := [5], out := ⟨["42\n"]⟩ }, some ⟨2, .dump, .output "not yet"⟩) :=
    step_of_fails (m := d) (i := ⟨.dump, 0⟩) rfl (.refused rfl rfl hwrite)
  obtain ⟨_, -, -, -, -, -, -, -, hsilent⟩ := fault_takes_at_most_top hm
  obtain ⟨_, -, -, -, -, -, -, hrefused, -⟩ := fault_takes_at_most_top hd
  exact ⟨⟨hm, (hsilent (by simp)).2⟩, hd, (hrefused _ rfl).2, by rw [hd]; rfl⟩

end StackLang.Machine
